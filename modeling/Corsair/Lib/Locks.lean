import Corsair.Lib.Machine
import Mathlib.Logic.Function.Basic
import Mathlib.Logic.Relation

-- Threads that go round after round through straight lines of mutex operations.
namespace Locks

inductive Op (L : Type*) where
  | acquire (l : L)
  | release (l : L)
  deriving DecidableEq

structure State (ι L : Type*) where
  owner : L → Option ι
  rest : ι → List (Op L)

inductive Event {ι : Type*} (rounds : ι → Type*) where
  | begins (t : ι) (round : rounds t)
  | runs (t : ι)

variable {ι L : Type*}

def State.idle : State ι L := ⟨fun _ => none, fun _ => []⟩

section Step

variable [DecidableEq ι] [DecidableEq L] {rounds : ι → Type*} (ops : ∀ t, rounds t → List (Op L))

-- A thread whose lock is taken stays where it is.
def step (s : State ι L) : Event rounds → State ι L × List Empty
  | .begins t round => match s.rest t with
    | [] => ({ s with rest := Function.update s.rest t (ops t round) }, [])
    | _ :: _ => (s, [])
  | .runs t => match s.rest t with
    | [] => (s, [])
    | .acquire l :: rest =>
      if s.owner l = none then
        ({ owner := Function.update s.owner l (some t), rest := Function.update s.rest t rest }, [])
      else (s, [])
    | .release l :: rest =>
      ({ owner := if s.owner l = some t then Function.update s.owner l none else s.owner
         rest := Function.update s.rest t rest }, [])

-- All a step can do.
inductive Moves (s : State ι L) : Event rounds → State ι L → Prop where
  | stays (e : Event rounds) : Moves s e s
  | began (t : ι) (round : rounds t) (done : s.rest t = []) :
      Moves s (.begins t round) { s with rest := Function.update s.rest t (ops t round) }
  | took (t : ι) (l : L) (rest : List (Op L)) (next : s.rest t = .acquire l :: rest) (free : s.owner l = none) :
      Moves s (.runs t) { owner := Function.update s.owner l (some t), rest := Function.update s.rest t rest }
  | gave (t : ι) (l : L) (rest : List (Op L)) (next : s.rest t = .release l :: rest) :
      Moves s (.runs t)
        { owner := if s.owner l = some t then Function.update s.owner l none else s.owner
          rest := Function.update s.rest t rest }

theorem step_moves (s : State ι L) (e : Event rounds) : Moves ops s e (step ops s e).1 := by
  cases e with
  | begins t round =>
    unfold step
    dsimp only
    split
    · rename_i done
      exact .began t round done
    · exact .stays _
  | runs t =>
    unfold step
    dsimp only
    split
    · exact .stays _
    · rename_i l rest next
      split
      · rename_i free
        exact .took t l rest next free
      · exact .stays _
    · rename_i l rest next
      exact .gave t l rest next

end Step

namespace State

variable (s : State ι L)

def Waits (t : ι) (l : L) : Prop := ∃ rest, s.rest t = .acquire l :: rest

-- `t` holds what `u` waits for.
def Blocks (t u : ι) : Prop := ∃ l, s.owner l = some t ∧ s.Waits u l

def Deadlocked : Prop := ∃ t, Relation.TransGen s.Blocks t t

theorem waits_one {s : State ι L} {t : ι} {l other : L} (waits : s.Waits t l) (also : s.Waits t other) : l = other := by
  obtain ⟨rest, next⟩ := waits
  obtain ⟨more, same⟩ := also
  rw [next] at same
  cases same
  rfl

end State

section Discipline

variable [DecidableEq L] (rank : L → ℕ) (gate : L)

-- Locks are taken upwards in rank, and behind the gate also level.
def InOrder (held : List L) (l : L) : Prop :=
  l ∉ held ∧ ∀ h ∈ held, rank h < rank l ∨ (gate ∈ held ∧ rank h ≤ rank l)

instance (held : List L) (l : L) : Decidable (InOrder rank gate held l) := inferInstanceAs (Decidable (_ ∧ _))

def Disciplined (held : List L) : List (Op L) → Prop
  | [] => held = []
  | .acquire l :: rest => InOrder rank gate held l ∧ Disciplined (l :: held) rest
  | .release l :: rest => l ∈ held ∧ Disciplined (held.filter (· ≠ l)) rest

instance disciplined_decidable (held : List L) : (line : List (Op L)) → Decidable (Disciplined rank gate held line)
  | [] => inferInstanceAs (Decidable (held = []))
  | .acquire l :: rest =>
    have : Decidable (Disciplined rank gate (l :: held) rest) := disciplined_decidable (l :: held) rest
    inferInstanceAs (Decidable (_ ∧ _))
  | .release l :: rest =>
    have : Decidable (Disciplined rank gate (held.filter (· ≠ l)) rest) :=
      disciplined_decidable (held.filter (· ≠ l)) rest
    inferInstanceAs (Decidable (_ ∧ _))

-- The lines of a round one after another.
theorem disciplined_append {held : List L} {first second : List (Op L)} (one : Disciplined rank gate held first)
    (two : Disciplined rank gate [] second) : Disciplined rank gate held (first ++ second) := by
  induction first generalizing held with
  | nil =>
    obtain rfl : held = [] := one
    exact two
  | cons op rest next =>
    cases op with
    | acquire l => exact ⟨one.1, next one.2⟩
    | release l => exact ⟨one.1, next one.2⟩

-- A stretch that leaves as many locks held as it found may be gone through any number of times.
theorem disciplined_repeat {held : List L} {stretch rest : List (Op L)}
    (kept : ∀ line, Disciplined rank gate held line → Disciplined rank gate held (stretch ++ line))
    (after : Disciplined rank gate held rest) (n : ℕ) :
    Disciplined rank gate held ((List.replicate n stretch).flatten ++ rest) := by
  induction n with
  | zero => exact after
  | succ n next =>
    rw [List.replicate_succ, List.flatten_cons, List.append_assoc]
    exact kept _ next

end Discipline

-- The thread holds what its line so far has taken, as `P` says of the two.
def Holds (P : List L → List (Op L) → Prop) (s : State ι L) (t : ι) : Prop :=
  ∃ held, (∀ l, l ∈ held ↔ s.owner l = some t) ∧ P held (s.rest t)

structure LineInvariant [DecidableEq L] (P : List L → List (Op L) → Prop) : Prop where
  acquire : ∀ held l rest, P held (.acquire l :: rest) → P (l :: held) rest
  release : ∀ held l rest, P held (.release l :: rest) → l ∈ held ∧ P (held.filter (· ≠ l)) rest
  done : ∀ held, P held [] → held = []

def Keeps [DecidableEq L] (rank : L → ℕ) (gate : L) (s : State ι L) (t : ι) : Prop := Holds (Disciplined rank gate) s t

theorem disciplined_invariant [DecidableEq L] (rank : L → ℕ) (gate : L) : LineInvariant (Disciplined rank gate) where
  acquire _ _ _ given := given.2
  release _ _ _ given := given
  done _ given := given

section Invariant

variable [DecidableEq ι] [DecidableEq L] {rounds : ι → Type*} {ops : ∀ t, rounds t → List (Op L)}
  {P : List L → List (Op L) → Prop} {s : State ι L} {t : ι}

omit [DecidableEq ι] [DecidableEq L] in
theorem idle_holds (start : P [] []) (t : ι) : Holds P (.idle : State ι L) t :=
  ⟨[], fun _ => ⟨fun held => absurd held List.not_mem_nil, fun owned => absurd owned (Option.some_ne_none t).symm⟩, start⟩

omit [DecidableEq ι] [DecidableEq L] in
-- What another thread does leaves a thread's locks and line alone.
theorem holds_other {next : State ι L} (holds : Holds P s t) (rest : next.rest t = s.rest t)
    (owner : ∀ l, next.owner l = some t ↔ s.owner l = some t) : Holds P next t := by
  obtain ⟨held, owned, line⟩ := holds
  exact ⟨held, fun l => (owned l).trans (owner l).symm, rest ▸ line⟩

theorem holds_step (invariant : LineInvariant P) (own : ∀ round, P [] (ops t round)) (e : Event rounds)
    (holds : Holds P s t) : Holds P (step ops s e).1 t := by
  have moves := step_moves ops s e
  generalize (step ops s e).1 = after at moves
  cases moves with
  | stays => exact holds
  | began u round done =>
    by_cases same : u = t
    · subst same
      obtain ⟨held, owned, line⟩ := holds
      rw [done] at line
      obtain rfl := invariant.done held line
      refine ⟨[], owned, ?_⟩
      dsimp only
      rw [Function.update_self]
      exact own round
    · exact holds_other holds (Function.update_of_ne (Ne.symm same) _ _) fun _ => Iff.rfl
  | took u l rest next free =>
    by_cases same : u = t
    · subst same
      obtain ⟨held, owned, line⟩ := holds
      rw [next] at line
      refine ⟨l :: held, ?_, ?_⟩
      · intro other
        by_cases taken : other = l
        · subst taken
          simp
        · dsimp only
          rw [List.mem_cons, Function.update_of_ne taken, owned]
          simp [taken]
      · dsimp only
        rw [Function.update_self]
        exact invariant.acquire held l rest line
    · refine holds_other holds (Function.update_of_ne (Ne.symm same) _ _) ?_
      intro other
      by_cases taken : other = l
      · subst taken
        simp [free, same]
      · dsimp only
        rw [Function.update_of_ne taken]
  | gave u l rest next =>
    by_cases same : u = t
    · subst same
      obtain ⟨held, owned, line⟩ := holds
      rw [next] at line
      obtain ⟨own, after⟩ := invariant.release held l rest line
      rw [if_pos ((owned l).mp own)]
      refine ⟨held.filter (· ≠ l), ?_, ?_⟩
      · intro other
        dsimp only
        rw [List.mem_filter, owned]
        by_cases given : other = l
        · subst given
          simp
        · rw [Function.update_of_ne given]
          simp [given]
      · dsimp only
        rw [Function.update_self]
        exact after
    · refine holds_other holds (Function.update_of_ne (Ne.symm same) _ _) ?_
      intro other
      dsimp only
      split
      · rename_i owned
        by_cases given : other = l
        · subst given
          simp [owned, same]
        · rw [Function.update_of_ne given]
      · exact Iff.rfl

end Invariant

section Cycles

variable [DecidableEq ι] [DecidableEq L] {rank : L → ℕ} {gate : L} {s : State ι L} {t u : ι}

-- Twice the rank of the lock waited for, and one more behind the gate.
def height (rank : L → ℕ) (gate : L) (s : State ι L) (t : ι) (l : L) : ℕ :=
  2 * rank l + if s.owner gate = some t then 1 else 0

omit [DecidableEq ι] in
theorem keeps_apart (keeps : Keeps rank gate s t) {l : L} (waits : s.Waits t l) : s.owner l ≠ some t := by
  obtain ⟨held, owned, disciplined⟩ := keeps
  obtain ⟨rest, next⟩ := waits
  rw [next] at disciplined
  exact fun holds => disciplined.1.1 ((owned l).mpr holds)

-- Only the thread that blocks need keep the order.
theorem blocks_descends (keeps : Keeps rank gate s t) {awaited lock : L} (waiting : s.Waits t awaited)
    (holds : s.owner lock = some t) (waits : s.Waits u lock) :
    height rank gate s u lock < height rank gate s t awaited := by
  have apart := keeps_apart keeps waiting
  obtain ⟨held, owned, disciplined⟩ := keeps
  obtain ⟨rest, next⟩ := waiting
  rw [next] at disciplined
  unfold height
  rcases disciplined.1.2 lock ((owned lock).mpr holds) with below | ⟨gated, level⟩
  · split <;> split <;> omega
  · have behind := (owned gate).mp gated
    have other : u ≠ t := by
      intro same
      subst same
      rw [State.waits_one ⟨rest, next⟩ waits] at apart
      exact apart holds
    have outside : s.owner gate ≠ some u := by
      rw [behind]
      exact fun same => other (Option.some.inj same).symm
    rw [if_pos behind, if_neg outside]
    omega

def KeptBlocks (rank : L → ℕ) (gate : L) (s : State ι L) (t u : ι) : Prop := Keeps rank gate s t ∧ s.Blocks t u

theorem path_descends {awaited : L} (waiting : s.Waits t awaited)
    (path : Relation.TransGen (KeptBlocks rank gate s) t u) :
    ∃ lock, s.Waits u lock ∧ height rank gate s u lock < height rank gate s t awaited := by
  induction path with
  | single edge =>
    obtain ⟨keeps, lock, holds, waits⟩ := edge
    exact ⟨lock, waits, blocks_descends keeps waiting holds waits⟩
  | tail _ edge later =>
    obtain ⟨between, waiting, lower⟩ := later
    obtain ⟨keeps, lock, holds, waits⟩ := edge
    exact ⟨lock, waits, Nat.lt_trans (blocks_descends keeps waiting holds waits) lower⟩

theorem no_kept_cycle (t : ι) : ¬Relation.TransGen (KeptBlocks rank gate s) t t := by
  intro cycle
  obtain ⟨between, -, -, lock, -, waits⟩ := Relation.TransGen.tail'_iff.mp cycle
  obtain ⟨again, same, lower⟩ := path_descends waits cycle
  rw [State.waits_one waits same] at lower
  exact absurd lower (Nat.lt_irrefl _)

-- A cycle either keeps clear of a thread or comes back to it from what it blocks.
theorem cycle_through {R : ι → ι → Prop} (d : ι) {a b : ι} (path : Relation.TransGen R a b) :
    Relation.TransGen (fun x y => x ≠ d ∧ R x y) a b ∨
      Relation.ReflTransGen (fun x y => x ≠ d ∧ R x y) a d ∧
        ∃ u, R d u ∧ Relation.ReflTransGen (fun x y => x ≠ d ∧ R x y) u b := by
  induction path with
  | single edge =>
    by_cases source : a = d
    · subst source
      exact .inr ⟨.refl, _, edge, .refl⟩
    · exact .inl (.single ⟨source, edge⟩)
  | @tail b c _ edge before =>
    by_cases source : b = d
    · subst source
      refine .inr ⟨?_, _, edge, .refl⟩
      rcases before with clear | ⟨back, -⟩
      · exact clear.to_reflTransGen
      · exact back
    · rcases before with clear | ⟨back, u, out, on⟩
      · exact .inl (clear.tail ⟨source, edge⟩)
      · exact .inr ⟨back, u, out, on.tail ⟨source, edge⟩⟩

end Cycles

end Locks
