import Mathlib.Data.List.Induction
import Mathlib.Data.List.Nodup
import Corsair.Book.Portfolio

namespace Corsair.Book

open BrokerApi

-- Every key found is found at a position with that key, and every position's key is
-- found; two positions may share one.
structure Maps (index : HashMap PositionKey ℕ) (positions : List Position) : Prop where
  sound : ∀ key i, index.get key = some i → (positions.map Position.key)[i]? = some key
  complete : ∀ key ∈ positions.map Position.key, ∃ i, index.get key = some i

-- The index finds the position of a key and nothing else, and no key is held twice.
structure Indexed (s : PortfolioState) : Prop where
  unique : (s.positions.map Position.key).Nodup
  finds : ∀ key i, s.index.get key = some i ↔ ∃ pos, s.positions[i]? = some pos ∧ pos.key = key

theorem key_at {positions : List Position} {key : PositionKey} {i : ℕ} :
    (positions.map Position.key)[i]? = some key ↔ ∃ pos, positions[i]? = some pos ∧ pos.key = key := by
  rw [List.getElem?_map, Option.map_eq_some_iff]

theorem Indexed.maps {s : PortfolioState} (indexed : Indexed s) : Maps s.index s.positions := by
  refine ⟨fun key i found => key_at.mpr ((indexed.finds key i).mp found), ?_⟩
  intro key held
  obtain ⟨i, at_i⟩ := List.mem_iff_getElem?.mp held
  exact ⟨i, (indexed.finds key i).mpr (key_at.mp at_i)⟩

theorem indexed_of_maps {s : PortfolioState} (maps : Maps s.index s.positions)
    (unique : (s.positions.map Position.key).Nodup) : Indexed s := by
  refine ⟨unique, fun key i => ?_⟩
  rw [← key_at]
  refine ⟨maps.sound key i, ?_⟩
  intro at_i
  obtain ⟨j, found⟩ := maps.complete key (List.mem_of_getElem? at_i)
  obtain ⟨bound, here⟩ := List.getElem?_eq_some_iff.mp at_i
  obtain ⟨other, there⟩ := List.getElem?_eq_some_iff.mp (maps.sound key j found)
  have same : i = j := (List.Nodup.getElem_inj_iff unique).mp (here.trans there.symm)
  rw [same, found]

theorem split_at {α : Type*} {xs : List α} {i : ℕ} {x : α} (found : xs[i]? = some x) :
    ∃ before later, xs = before ++ x :: later ∧ before.length = i := by
  obtain ⟨bound, equal⟩ := List.getElem?_eq_some_iff.mp found
  refine ⟨xs.take i, xs.drop (i + 1), ?_, by simp; omega⟩
  rw [← equal, List.getElem_cons_drop, List.take_append_drop]

-- The last position pushed is the one its key finds.
theorem maps_push {index : HashMap PositionKey ℕ} {positions : List Position} (maps : Maps index positions)
    (pos : Position) : Maps (index.set pos.key positions.length) (positions ++ [pos]) := by
  refine ⟨?_, ?_⟩
  · intro key i found
    rw [HashMap.get_set] at found
    rw [List.map_append]
    split at found
    · rename_i own
      cases found
      rw [own, List.getElem?_append_right (by simp)]
      simp
    · have old := maps.sound key i found
      obtain ⟨bound, -⟩ := List.getElem?_eq_some_iff.mp old
      rw [List.getElem?_append_left bound, old]
  · intro key held
    rw [HashMap.get_set]
    split
    · exact ⟨_, rfl⟩
    · rename_i other
      rw [List.map_append, List.mem_append] at held
      rcases held with old | new
      · exact maps.complete key old
      · exact absurd (List.mem_singleton.mp new) other

theorem indexOf_maps (positions : List Position) : Maps (PortfolioState.indexOf positions) positions := by
  induction positions using List.reverseRecOn with
  | nil => exact ⟨by simp [PortfolioState.indexOf], by simp⟩
  | append_singleton earlier p maps =>
    have snoc : PortfolioState.indexOf (earlier ++ [p]) =
        (PortfolioState.indexOf earlier).set p.key earlier.length := by
      unfold PortfolioState.indexOf
      rw [List.zipIdx_append, List.foldl_append]
      simp
    rw [snoc]
    exact maps_push maps p

theorem maps_same {index : HashMap PositionKey ℕ} {before after : List Position} (maps : Maps index before)
    (same : after.map Position.key = before.map Position.key) : Maps index after :=
  ⟨by rw [same]; exact maps.sound, by rw [same]; exact maps.complete⟩

theorem maps_absent {index : HashMap PositionKey ℕ} {positions : List Position} (maps : Maps index positions)
    {key : PositionKey} (missing : index.get key = none) : key ∉ positions.map Position.key := by
  intro held
  obtain ⟨i, found⟩ := maps.complete key held
  cases found.symm.trans missing

theorem new_indexed (registry : ProductRegistry) : Indexed (.new registry) :=
  ⟨List.nodup_nil, by simp [PortfolioState.new]⟩

-- What one accepted fill does to the list of positions.
inductive Filled (before : List Position) (new : Position) : List Position → Prop where
  | opened (absent : ∀ p ∈ before, p.key ≠ new.key) : Filled before new (before ++ [new])
  | closed {early later : List Position} {pos : Position} (split : before = early ++ pos :: later)
      (same : pos.key = new.key) (flat : pos.quantity + new.quantity = 0) :
      Filled before new (early ++ later)
  | merged {early later : List Position} {pos : Position} (split : before = early ++ pos :: later)
      (same : pos.key = new.key) (left : pos.quantity + new.quantity ≠ 0) :
      Filled before new (early ++
        { pos with quantity := pos.quantity + new.quantity, avgFillPrice := new.avgFillPrice } :: later)

theorem Filled.unique {before after : List Position} {new : Position} (shape : Filled before new after)
    (unique : (before.map Position.key).Nodup) : (after.map Position.key).Nodup := by
  cases shape with
  | opened absent =>
    rw [List.map_append, List.map_singleton]
    refine List.Nodup.append unique (List.nodup_singleton _) ?_
    simpa using fun p member => absent p member
  | @closed early later pos split same flat =>
    refine unique.sublist (List.Sublist.map _ ?_)
    rw [split]
    exact (List.sublist_cons_self pos later).append_left early
  | @merged early later pos split same left =>
    rw [split, List.map_append] at unique
    rwa [List.map_append]

theorem split_apart {before early later : List Position} {pos : Position} (unique : (before.map Position.key).Nodup)
    (split : before = early ++ pos :: later) : ∀ q ∈ early ++ later, q.key ≠ pos.key := by
  intro q member same
  rw [split, List.map_append, List.map_cons, List.nodup_middle] at unique
  refine (List.nodup_cons.mp unique).1 ?_
  rw [← same, ← List.map_append]
  exact List.mem_map_of_mem member

theorem split_others {before early later : List Position} {pos : Position} (unique : (before.map Position.key).Nodup)
    (split : before = early ++ pos :: later) (p : Position) :
    p ∈ early ++ later ↔ p ∈ before ∧ p.key ≠ pos.key := by
  constructor
  · intro member
    refine ⟨?_, split_apart unique split p member⟩
    rw [split]
    simp only [List.mem_append, List.mem_cons] at member ⊢
    tauto
  · intro given
    obtain ⟨member, other⟩ := given
    rw [split] at member
    simp only [List.mem_append, List.mem_cons] at member ⊢
    rcases member with early | rfl | later
    · exact .inl early
    · exact absurd rfl other
    · exact .inr later

-- Read by membership: other keys keep their positions, and the fill's own key
-- holds what opening or merging leaves there.
theorem Filled.mem {before after : List Position} {new : Position} (shape : Filled before new after)
    (unique : (before.map Position.key).Nodup) (p : Position) :
    p ∈ after ↔ (p ∈ before ∧ p.key ≠ new.key) ∨
      (p = new ∧ ∀ q ∈ before, q.key ≠ new.key) ∨
      ∃ pos ∈ before, pos.key = new.key ∧ pos.quantity + new.quantity ≠ 0 ∧
        p = { pos with quantity := pos.quantity + new.quantity, avgFillPrice := new.avgFillPrice } := by
  cases shape with
  | opened absent =>
    have none_merged : ¬∃ pos ∈ before, pos.key = new.key ∧ pos.quantity + new.quantity ≠ 0 ∧
        p = { pos with quantity := pos.quantity + new.quantity, avgFillPrice := new.avgFillPrice } := by
      intro given
      obtain ⟨pos, member, same, -⟩ := given
      exact absent pos member same
    rw [List.mem_append, List.mem_singleton]
    constructor
    · intro given
      rcases given with old | rfl
      · exact .inl ⟨old, absent p old⟩
      · exact .inr (.inl ⟨rfl, absent⟩)
    · intro given
      rcases given with ⟨old, -⟩ | ⟨rfl, -⟩ | merged
      · exact .inl old
      · exact .inr rfl
      · exact absurd merged none_merged
  | @closed early later pos split same flat =>
    have member : pos ∈ before := by simp [split]
    rw [split_others unique split, same]
    constructor
    · exact .inl
    · intro given
      rcases given with kept | ⟨-, absent⟩ | ⟨other, held, own, left, -⟩
      · exact kept
      · exact absurd same (absent pos member)
      · have equal := List.inj_on_of_nodup_map unique held member (own.trans same.symm)
        exact absurd flat (equal ▸ left)
  | @merged early later pos split same left =>
    have member : pos ∈ before := by simp [split]
    have middle : ∀ new : Position, p ∈ early ++ new :: later ↔ p ∈ early ++ later ∨ p = new := by
      intro new
      simp only [List.mem_append, List.mem_cons]
      tauto
    rw [middle, split_others unique split, same]
    constructor
    · intro given
      rcases given with kept | equal
      · exact .inl kept
      · exact .inr (.inr ⟨pos, member, same, left, equal⟩)
    · intro given
      rcases given with kept | ⟨-, absent⟩ | ⟨other, held, own, -, equal⟩
      · exact .inl kept
      · exact absurd same (absent pos member)
      · have unchanged := List.inj_on_of_nodup_map unique held member (own.trans same.symm)
        subst unchanged
        exact .inr equal

def freshPosition (s : PortfolioState) (product : String) (strike : ℚ) (expiry : NaiveDate) (right : Right)
    (quantity : ℤ) (fillPrice : ℚ) : Position where
  product := product
  strike := strike
  expiry := expiry
  right := right
  quantity := quantity
  avgFillPrice := fillPrice
  multiplier := (s.registry.multiplierFor product).getD 100
  delta := 0
  gamma := 0
  theta := 0
  vega := 0
  currentPrice := 0

theorem addFill_zero (s : PortfolioState) (product : String) (strike : ℚ) (expiry : NaiveDate) (right : Right)
    (fillPrice spread spreadMid : ℚ) :
    (s.addFill product strike expiry right 0 fillPrice spread spreadMid).1 = s := rfl

-- What an accepted fill does, for a book that may hold one key more than once.
theorem addFill_maps {s : PortfolioState} (maps : Maps s.index s.positions) (product : String) (strike : ℚ)
    (expiry : NaiveDate) (right : Right) {quantity : ℤ} (some : quantity ≠ 0) (fillPrice spread spreadMid : ℚ) :
    let next := (s.addFill product strike expiry right quantity fillPrice spread spreadMid).1
    Maps next.index next.positions ∧ next.registry = s.registry ∧ next.realizedPnlPersisted = s.realizedPnlPersisted ∧
      Filled s.positions (freshPosition s product strike expiry right quantity fillPrice) next.positions := by
  simp only [PortfolioState.addFill, if_neg some]
  cases found : s.index.get (makeKey product strike expiry right) with
  | none =>
    have missing := maps_absent maps found
    refine ⟨maps_push maps (freshPosition s product strike expiry right quantity fillPrice), rfl, rfl, .opened ?_⟩
    intro p member same
    exact missing (List.mem_map.mpr ⟨p, member, same⟩)
  | some idx =>
    obtain ⟨pos, at_idx, same⟩ := key_at.mp (maps.sound _ idx found)
    obtain ⟨early, later, split, length⟩ := split_at at_idx
    simp only [at_idx, PortfolioState.mergeFill]
    by_cases flat : pos.quantity + quantity = 0
    · rw [if_pos flat]
      have erased : s.positions.eraseIdx idx = early ++ later := by
        rw [split, ← length, List.eraseIdx_append_of_length_le (Nat.le_refl _)]
        simp
      refine ⟨indexOf_maps (s.positions.eraseIdx idx), rfl, rfl, ?_⟩
      have closed : Filled s.positions (freshPosition s product strike expiry right quantity fillPrice)
          (early ++ later) := .closed split same flat
      rw [← erased] at closed
      exact closed
    · rw [if_neg flat]
      have written : ∀ new, s.positions.set idx new = early ++ new :: later := by
        intro new
        rw [split, ← length]
        simp
      refine ⟨?_, rfl, rfl, ?_⟩
      · refine maps_same maps ?_
        change (s.positions.set idx _).map Position.key = _
        rw [written, split, List.map_append, List.map_append]
        rfl
      · have merged : Filled s.positions (freshPosition s product strike expiry right quantity fillPrice)
            (early ++ { pos with quantity := pos.quantity + quantity, avgFillPrice := fillPrice } :: later) :=
          .merged split same flat
        rw [← written] at merged
        exact merged

theorem addFill_cases {s : PortfolioState} (indexed : Indexed s) (product : String) (strike : ℚ)
    (expiry : NaiveDate) (right : Right) {quantity : ℤ} (some : quantity ≠ 0) (fillPrice spread spreadMid : ℚ) :
    let next := (s.addFill product strike expiry right quantity fillPrice spread spreadMid).1
    Indexed next ∧ next.registry = s.registry ∧ next.realizedPnlPersisted = s.realizedPnlPersisted ∧
      Filled s.positions (freshPosition s product strike expiry right quantity fillPrice) next.positions := by
  obtain ⟨maps, registry, persisted, shape⟩ :=
    addFill_maps indexed.maps product strike expiry right some fillPrice spread spreadMid
  exact ⟨indexed_of_maps maps (shape.unique indexed.unique), registry, persisted, shape⟩

end Corsair.Book
