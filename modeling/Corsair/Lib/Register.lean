import Mathlib.Algebra.BigOperators.Group.List.Basic
import Mathlib.Algebra.BigOperators.Ring.Finset
import Mathlib.Data.List.Induction

-- Events that each add an amount to a register named by their key.
namespace Register

variable {ε κ : Type*} [DecidableEq κ] (key : ε → κ)

section Sum

variable {M : Type*} [AddCommMonoid M] (amount : ε → M)

def total (events : List ε) (k : κ) : M := ((events.filter (key · = k)).map amount).sum

@[simp] theorem total_nil (k : κ) : total key amount [] k = 0 := rfl

theorem total_append (events later : List ε) (k : κ) :
    total key amount (events ++ later) k = total key amount events k + total key amount later k := by
  simp [total]

theorem total_option {event : Option ε} {own : κ} (owned : ∀ e ∈ event, key e = own) (k : κ) :
    total key amount event.toList k = if own = k then (event.map amount).getD 0 else 0 := by
  cases event with
  | none => simp [total]
  | some e =>
    have same := owned e rfl
    subst same
    by_cases mine : key e = k <;> simp [total, mine]

theorem total_snoc (events : List ε) (e : ε) (k : κ) :
    total key amount (events ++ [e]) k = total key amount events k + if key e = k then amount e else 0 := by
  unfold total
  by_cases own : key e = k
  · simp [own]
  · simp [own]

theorem total_perm {events others : List ε} (same : events.Perm others) (k : κ) :
    total key amount events k = total key amount others k :=
  ((same.filter _).map amount).sum_eq

theorem total_map {f : ε → ε} (owner : ∀ e, key (f e) = key e) (same : ∀ e, amount (f e) = amount e)
    (events : List ε) (k : κ) : total key amount (events.map f) k = total key amount events k := by
  unfold total
  rw [List.filter_map, List.map_map]
  simp only [Function.comp_def, owner, same]

theorem total_absent {events : List ε} {k : κ} (absent : k ∉ events.map key) :
    total key amount events k = 0 := by
  unfold total
  rw [List.filter_eq_nil_iff.mpr]
  · rfl
  · intro e member
    simp only [decide_eq_true_eq]
    intro own
    exact absent (own ▸ List.mem_map_of_mem member)

-- Any set of keys that has all of the events' keys makes up the whole amount.
theorem sum_total {events : List ε} {keys : Finset κ} (covered : ∀ e ∈ events, key e ∈ keys) :
    ∑ k ∈ keys, total key amount events k = (events.map amount).sum := by
  induction events with
  | nil => simp
  | cons e rest next =>
    have own : ∀ k ∈ keys, total key amount (e :: rest) k =
        (if key e = k then amount e else 0) + total key amount rest k := by
      intro k _
      by_cases mine : key e = k <;> simp [total, mine]
    rw [Finset.sum_congr rfl own, Finset.sum_add_distrib, Finset.sum_ite_eq, if_pos (covered e List.mem_cons_self),
      next fun other member => covered other (List.mem_cons_of_mem _ member), List.map_cons, List.sum_cons]

-- A fold of which one figure grows by each event's own amount.
omit [DecidableEq κ] in
theorem foldl_field {σ : Type*} {step : σ → ε → σ} (field : σ → M)
    (adds : ∀ s e, field (step s e) = field s + amount e) (events : List ε) (s : σ) :
    field (events.foldl step s) = field s + (events.map amount).sum := by
  induction events generalizing s with
  | nil => simp
  | cons e rest next => rw [List.foldl_cons, next, adds, List.map_cons, List.sum_cons, add_assoc]

end Sum

section Last

variable {V : Type*} (value : ε → V)

def last (events : List ε) (k : κ) : Option V := ((events.filter (key · = k)).getLast?).map value

theorem last_snoc (events : List ε) (e : ε) (k : κ) :
    last key value (events ++ [e]) k = if key e = k then some (value e) else last key value events k := by
  unfold last
  by_cases own : key e = k
  · simp [own]
  · simp [own]

theorem last_append (events later : List ε) (k : κ) :
    last key value (events ++ later) k = (last key value later k).or (last key value events k) := by
  unfold last
  rw [List.filter_append, List.getLast?_append, Option.map_or]

theorem last_held {events : List ε} {k : κ} {v : V} (found : last key value events k = some v) :
    ∃ e ∈ events, key e = k ∧ value e = v := by
  obtain ⟨e, latest, own⟩ := Option.map_eq_some_iff.mp found
  obtain ⟨member, same⟩ := List.mem_filter.mp (List.mem_of_getLast? latest)
  exact ⟨e, member, by simpa using same, own⟩

theorem last_absent {events : List ε} {k : κ} (missing : last key value events k = none) :
    ∀ e ∈ events, key e ≠ k := by
  intro e member own
  have nothing := List.getLast?_eq_none_iff.mp (Option.map_eq_none_iff.mp missing)
  have held : e ∈ events.filter (key · = k) := List.mem_filter.mpr ⟨member, by simpa using own⟩
  rw [nothing] at held
  cases held

end Last

-- The newest of what some of the events tell.
section Latest

variable {V : Type*} (tells : ε → Option V)

def latest (events : List ε) : Option V := (events.filterMap tells).getLast?

@[simp] theorem latest_nil : latest tells [] = none := rfl

theorem latest_append (events later : List ε) :
    latest tells (events ++ later) = (latest tells later).or (latest tells events) := by
  rw [latest, List.filterMap_append, List.getLast?_append]
  rfl

theorem latest_snoc (events : List ε) (e : ε) : latest tells (events ++ [e]) = (tells e).or (latest tells events) := by
  rw [latest_append]
  cases told : tells e <;> simp [latest, told]

theorem latest_silent {events later : List ε} (silent : ∀ e ∈ later, tells e = none) :
    latest tells (events ++ later) = latest tells events := by
  rw [latest_append, latest, List.filterMap_eq_nil_iff.mpr silent]
  rfl

theorem latest_told {events : List ε} {v : V} (found : latest tells events = some v) : ∃ e ∈ events, tells e = some v :=
  List.mem_filterMap.mp (List.mem_of_getLast? found)

end Latest

-- A sum over entries with distinct keys, read as a sum over any set of keys that
-- covers them and on which the other keys count nothing.
theorem sum_entries {R : Type*} [AddCommMonoid R] {entries : List ε} (unique : (entries.map key).Nodup)
    {keys : Finset κ} {count : κ → R} (covered : ∀ e ∈ entries, key e ∈ keys)
    (others : ∀ k ∈ keys, k ∉ entries.map key → count k = 0) :
    (entries.map fun e => count (key e)).sum = ∑ k ∈ keys, count k := by
  have own : (entries.map fun e => count (key e)).sum = ∑ k ∈ (entries.map key).toFinset, count k := by
    rw [List.sum_toFinset count unique, List.map_map]
    rfl
  rw [own]
  refine Finset.sum_subset ?_ ?_
  · intro k member
    obtain ⟨e, held, rfl⟩ := List.mem_map.mp (List.mem_toFinset.mp member)
    exact covered e held
  · intro k member absent
    exact others k member (by simpa using absent)

end Register
