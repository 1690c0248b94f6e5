import Mathlib.Data.List.DropRight
import Mathlib.Data.List.Nodup

-- A bounded memory of distinct things: the newest `cap` of those it was told.
structure Recent (α : Type*) (cap : ℕ) where
  items : List α
  distinct : items.Nodup
  bounded : items.length ≤ cap

namespace Recent

variable {α : Type*} {cap : ℕ}

theorem rtake_suffix (l : List α) (n : ℕ) : l.rtake n <:+ l := List.drop_suffix _ _

theorem length_rtake (l : List α) (n : ℕ) : (l.rtake n).length = min n l.length := by
  rw [List.rtake_eq_reverse_take_reverse, List.length_reverse, List.length_take, List.length_reverse]

theorem rtake_all {l : List α} {n : ℕ} (few : l.length ≤ n) : l.rtake n = l := by
  apply List.IsSuffix.eq_of_length (rtake_suffix l n)
  rw [length_rtake, min_eq_right few]

-- What was forgotten before a thing came is forgotten after it too.
theorem rtake_rtake_concat (l : List α) (x : α) (n : ℕ) : (l.rtake n ++ [x]).rtake n = (l ++ [x]).rtake n := by
  cases n with
  | zero => simp only [List.rtake_zero]
  | succ n =>
    rw [List.rtake_concat_succ, List.rtake_concat_succ, List.rtake_eq_reverse_take_reverse (l := l.rtake (n + 1)),
      List.rtake_eq_reverse_take_reverse (l := l), List.reverse_reverse, List.take_take, List.rtake_eq_reverse_take_reverse,
      min_eq_left (Nat.le_succ n)]

-- A thing is still among the newest while fewer than the bound have come after it.
theorem mem_rtake {past later : List α} {x : α} (few : later.length < cap) : x ∈ (past ++ x :: later).rtake cap := by
  rw [List.rtake_eq_reverse_take_reverse, List.mem_reverse, List.reverse_append, List.reverse_cons, List.append_assoc,
    List.take_append, List.length_reverse]
  apply List.mem_append_right
  obtain ⟨room, enough⟩ := Nat.exists_eq_succ_of_ne_zero (Nat.sub_ne_zero_of_lt few)
  rw [enough]
  exact List.mem_cons_self

def empty : Recent α cap := ⟨[], List.nodup_nil, Nat.zero_le _⟩

def push (r : Recent α cap) (x : α) (fresh : x ∉ r.items) : Recent α cap where
  items := (r.items ++ [x]).rtake cap
  distinct := by
    apply (rtake_suffix _ _).sublist.nodup
    apply List.nodup_append'.mpr
    refine ⟨r.distinct, List.nodup_singleton x, ?_⟩
    exact List.disjoint_singleton.mpr fresh
  bounded := by
    rw [length_rtake]
    exact min_le_left _ _

theorem push_room {r : Recent α cap} (room : r.items.length < cap) {x : α} (fresh : x ∉ r.items) :
    (r.push x fresh).items = r.items ++ [x] := by
  apply rtake_all
  rw [List.length_append, List.length_singleton]
  exact room

theorem push_full {r : Recent α cap} {old : α} {rest : List α} (items : r.items = old :: rest)
    (full : cap ≤ r.items.length) {x : α} (fresh : x ∉ r.items) : (r.push x fresh).items = rest ++ [x] := by
  have exactly : (r.items ++ [x]).length - cap = 1 := by
    have bounded := r.bounded
    rw [List.length_append, List.length_singleton]
    omega
  calc (r.items ++ [x]).drop ((r.items ++ [x]).length - cap) = (r.items ++ [x]).drop 1 := by rw [exactly]
    _ = rest ++ [x] := by rw [items]; rfl

-- The memory of a whole list of things told.
def Recalls (told : List α) (r : Recent α cap) : Prop := r.items = told.rtake cap

theorem empty_recalls : Recalls [] (empty : Recent α cap) := (List.rtake_nil cap).symm

theorem push_recalls {told : List α} {r : Recent α cap} (recalls : r.Recalls told) {x : α} (fresh : x ∉ r.items) :
    (r.push x fresh).Recalls (told ++ [x]) := by
  have before : r.items = told.rtake cap := recalls
  calc (r.items ++ [x]).rtake cap = (told.rtake cap ++ [x]).rtake cap := by rw [before]
    _ = (told ++ [x]).rtake cap := rtake_rtake_concat told x cap

theorem Recalls.told {told : List α} {r : Recent α cap} (recalls : r.Recalls told) {x : α} (member : x ∈ r.items) :
    x ∈ told := by
  rw [recalls] at member
  exact (rtake_suffix told cap).subset member

theorem Recalls.recent {past later : List α} {x : α} {r : Recent α cap} (recalls : r.Recalls (past ++ x :: later))
    (few : later.length < cap) : x ∈ r.items := by
  rw [recalls]
  exact mem_rtake few

end Recent
