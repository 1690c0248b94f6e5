import Mathlib.Data.List.AList
import Mathlib.Data.List.Induction

-- A hash map. Iteration goes over the entry list, whose order nothing here fixes:
-- a result stated for every map holds for every iteration order.
abbrev HashMap (κ : Type*) (ν : Type*) := AList (fun _ : κ => ν)

namespace HashMap

variable {κ ν : Type*} [DecidableEq κ]

def get (map : HashMap κ ν) (key : κ) : Option ν := map.lookup key
def set (map : HashMap κ ν) (key : κ) (value : ν) : HashMap κ ν := map.insert key value
def remove (map : HashMap κ ν) (key : κ) : HashMap κ ν := map.erase key

-- `get_mut` followed by an update of the value found.
def modify (map : HashMap κ ν) (key : κ) (f : ν → ν) : HashMap κ ν :=
  match map.get key with
  | none => map
  | some value => map.set key (f value)

def items (map : HashMap κ ν) : List (κ × ν) := map.entries.map fun entry => (entry.1, entry.2)
def values (map : HashMap κ ν) : List ν := map.items.map Prod.snd

@[simp] theorem get_empty (key : κ) : (∅ : HashMap κ ν).get key = none := AList.lookup_empty key

theorem get_set (map : HashMap κ ν) (key other : κ) (value : ν) :
    (map.set key value).get other = if other = key then some value else map.get other := by
  by_cases equal : other = key
  · subst equal
    simp [get, set]
  · simp [get, set, equal]

theorem get_remove (map : HashMap κ ν) (key other : κ) :
    (map.remove key).get other = if other = key then none else map.get other := by
  by_cases equal : other = key
  · subst equal
    simp [get, remove]
  · simp [get, remove, equal]

theorem get_set_update (map : HashMap κ ν) (key : κ) (value : ν) :
    (map.set key value).get = Function.update map.get key (some value) :=
  funext fun other => (get_set map key other value).trans (Function.update_apply ..).symm

theorem get_remove_update (map : HashMap κ ν) (key : κ) : (map.remove key).get = Function.update map.get key none :=
  funext fun other => (get_remove map key other).trans (Function.update_apply ..).symm

theorem get_modify (map : HashMap κ ν) (key other : κ) (f : ν → ν) :
    (map.modify key f).get other = if other = key then (map.get key).map f else map.get other := by
  unfold modify
  cases found : map.get key with
  | none =>
    by_cases equal : other = key
    · subst equal
      simpa using found
    · simp [equal]
  | some value => simp [get_set]

theorem mem_items {map : HashMap κ ν} {key : κ} {value : ν} :
    (key, value) ∈ map.items ↔ map.get key = some value := by
  unfold items get
  rw [← Option.mem_def, AList.mem_lookup_iff, List.mem_map]
  constructor
  · intro given
    obtain ⟨⟨k, v⟩, held, equal⟩ := given
    cases equal
    exact held
  · intro held
    exact ⟨_, held, rfl⟩

omit [DecidableEq κ] in
theorem nodup_keys (map : HashMap κ ν) : (map.items.map Prod.fst).Nodup := by
  unfold items
  rw [List.map_map]
  exact map.nodupKeys

theorem mem_values {map : HashMap κ ν} {value : ν} :
    value ∈ map.values ↔ ∃ key, map.get key = some value := by
  unfold values
  rw [List.mem_map]
  constructor
  · intro given
    obtain ⟨⟨key, held⟩, member, rfl⟩ := given
    exact ⟨key, mem_items.mp member⟩
  · intro given
    obtain ⟨key, found⟩ := given
    exact ⟨(key, value), mem_items.mpr found, rfl⟩

-- The values of a map are those of any keys that cover it, each taken once.
theorem values_perm {map : HashMap κ ν} {keys : List κ} (distinct : keys.Nodup)
    (covered : ∀ key value, map.get key = some value → key ∈ keys) : map.values.Perm (keys.filterMap map.get) := by
  let pairs := keys.filterMap fun key => (map.get key).map fun value => (key, value)
  have values : pairs.map Prod.snd = keys.filterMap map.get := by
    rw [List.map_filterMap]
    refine List.filterMap_congr fun key _ => ?_
    rw [Option.map_map]
    exact Option.map_id'
  have same : map.items.Perm pairs := by
    refine (List.perm_ext_iff_of_nodup (List.Nodup.of_map _ map.nodup_keys) ?_).mpr ?_
    · refine distinct.filterMap ?_
      intro one other pair here there
      obtain ⟨_, -, rfl⟩ := Option.map_eq_some_iff.mp here
      obtain ⟨_, -, same⟩ := Option.map_eq_some_iff.mp there
      exact (congrArg Prod.fst same).symm
    · intro pair
      rw [mem_items, List.mem_filterMap]
      constructor
      · intro found
        exact ⟨pair.1, covered _ _ found, by rw [found]; rfl⟩
      · intro given
        obtain ⟨key, -, read⟩ := given
        obtain ⟨value, found, rfl⟩ := Option.map_eq_some_iff.mp read
        exact found
  rw [← values]
  exact same.map Prod.snd

-- The map left once every key that fails a test is removed, one by one.
section Retained

def retain (map : HashMap κ ν) (keep : κ → Bool) : HashMap κ ν :=
  (map.items.map Prod.fst).foldl (fun kept key => if keep key then kept else kept.remove key) map

variable {keep : κ → Bool}

end Retained

-- A map written out entry by entry, each value changed on the way.
section Translated

variable {μ : Type*} (f : ν → μ)

theorem get_foldl_set {entries : List (κ × ν)} (distinct : (entries.map Prod.fst).Nodup) (start : HashMap κ μ) (k : κ) :
    (entries.foldl (fun map entry => map.set entry.1 (f entry.2)) start).get k =
      (((entries.find? (·.1 = k)).map fun entry => f entry.2).or (start.get k)) := by
  induction entries generalizing start with
  | nil => rfl
  | cons entry rest next =>
    obtain ⟨absent, others⟩ := List.nodup_cons.mp distinct
    rw [List.foldl_cons, next others, get_set]
    by_cases own : entry.1 = k
    · subst own
      have none : rest.find? (·.1 = entry.1) = none := by
        apply List.find?_eq_none.mpr
        intro other member same
        exact absent (List.mem_map.mpr ⟨other, member, of_decide_eq_true same⟩)
      simp [none]
    · simp [own, Ne.symm own]

theorem get_translated (map : HashMap κ ν) (k : κ) :
    (map.items.foldl (fun (acc : HashMap κ μ) entry => acc.set entry.1 (f entry.2)) ∅).get k = (map.get k).map f := by
  rw [get_foldl_set f (nodup_keys map), get_empty, Option.or_none]
  cases found : map.items.find? (·.1 = k) with
  | none =>
    cases held : map.get k with
    | none => rfl
    | some value =>
      have missing := List.find?_eq_none.mp found (k, value) (mem_items.mpr held)
      simp at missing
  | some entry =>
    have member := mem_items.mp (List.mem_of_find?_eq_some found)
    have chosen := List.find?_some found
    have own : entry.1 = k := of_decide_eq_true chosen
    rw [← own, member]
    rfl

end Translated

-- Entries gathered under their keys: each key's fold starts from `start` at the
-- first entry that carries it.
section Group

variable {α β : Type*} (key : α → κ) (add : β → α → β) (start : β)

def group (xs : List α) : HashMap κ β :=
  xs.foldl (fun groups x => groups.set (key x) (add ((groups.get (key x)).getD start) x)) ∅

theorem get_group (xs : List α) (k : κ) :
    (group key add start xs).get k =
      if k ∈ xs.map key then some ((xs.filter (key · = k)).foldl add start) else none := by
  induction xs using List.reverseRecOn with
  | nil => rfl
  | append_singleton xs x found =>
    have snoc : group key add start (xs ++ [x]) =
        (group key add start xs).set (key x) (add (((group key add start xs).get (key x)).getD start) x) := by
      simp [group]
    rw [snoc, get_set]
    by_cases own : k = key x
    · subst own
      rw [if_pos rfl, found]
      by_cases present : key x ∈ xs.map key
      · simp [present]
      · have missing : xs.filter (key · = key x) = [] := by
          refine List.filter_eq_nil_iff.mpr fun y member => ?_
          simp only [decide_eq_true_eq]
          exact fun same => present (List.mem_map.mpr ⟨y, member, same⟩)
        rw [if_neg present, List.filter_append, missing]
        simp
    · rw [if_neg own, found]
      simp [own, Ne.symm own]

end Group

-- Each key's values in the order they came.
theorem get_gathered {β : Type*} (xs : List (κ × β)) (k : κ) :
    (group Prod.fst (fun held x => held ++ [x.2]) [] xs).get k =
      if k ∈ xs.map Prod.fst then some ((xs.filter (·.1 = k)).map Prod.snd) else none := by
  have append (kept : List (κ × β)) (held : List β) :
      kept.foldl (fun held x => held ++ [x.2]) held = held ++ kept.map Prod.snd := by
    induction kept generalizing held with
    | nil => simp
    | cons x rest next =>
      rw [List.foldl_cons, next]
      simp
  rw [get_group, append, List.nil_append]

-- The same where the values are made from items of which some give none.
theorem get_gathered_map {α β : Type*} (name : α → κ) (make : α → Option β) (xs : List α) (k : κ) :
    (group Prod.fst (fun held x => held ++ [x.2]) [] (xs.filterMap fun x => (make x).map (name x, ·))).get k =
      let own := (xs.filter fun x => name x = k).filterMap make
      if own.isEmpty then none else some own := by
  have values : ((xs.filterMap fun x => (make x).map (name x, ·)).filter (·.1 = k)).map Prod.snd =
      (xs.filter fun x => name x = k).filterMap make := by
    induction xs with
    | nil => rfl
    | cons x rest next =>
      cases made : make x with
      | none =>
        rw [List.filterMap_cons_none (by rw [made]; rfl), List.filter_cons, next]
        split
        · rw [List.filterMap_cons_none made]
        · rfl
      | some value =>
        rw [List.filterMap_cons_some (by rw [made]; rfl), List.filter_cons, List.filter_cons]
        by_cases own : name x = k
        · simp [own, made, next]
        · simp [own, next]
  rw [get_gathered, values]
  simp only
  split
  · rename_i member
    obtain ⟨entry, held, own⟩ := List.mem_map.mp member
    have some_value : entry.2 ∈ (xs.filter fun x => name x = k).filterMap make := by
      rw [← values]
      exact List.mem_map.mpr ⟨entry, List.mem_filter.mpr ⟨held, by simpa using own⟩, rfl⟩
    rw [if_neg]
    intro empty
    rw [List.isEmpty_iff.mp empty] at some_value
    cases some_value
  · rename_i absent
    have nothing : (xs.filterMap fun x => (make x).map (name x, ·)).filter (·.1 = k) = [] := by
      apply List.filter_eq_nil_iff.mpr
      intro entry held own
      exact absent (List.mem_map.mpr ⟨entry, held, by simpa using own⟩)
    rw [← values, nothing]
    rfl

end HashMap
