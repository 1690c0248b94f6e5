import Mathlib.Data.List.Basic
import Mathlib.Data.List.Induction

-- A machine answers each input with its next state and a list of outputs.
namespace Machine

variable {σ ι ο : Type*} (step : σ → ι → σ × List ο)

def after (s : σ) : List ι → σ
  | [] => s
  | input :: rest => after (step s input).1 rest

def emitted (s : σ) : List ι → List ο
  | [] => []
  | input :: rest => (step s input).2 ++ emitted (step s input).1 rest

-- The run takes each of its steps from a state and with an input that `ok` allows.
def Along (ok : σ → ι → Prop) (s : σ) : List ι → Prop
  | [] => True
  | input :: rest => ok s input ∧ Along ok (step s input).1 rest

variable {step}

instance along_decidable {ok : σ → ι → Prop} [∀ s input, Decidable (ok s input)] (s : σ) :
    (inputs : List ι) → Decidable (Along step ok s inputs)
  | [] => .isTrue trivial
  | input :: rest =>
    have : Decidable (Along step ok (step s input).1 rest) := along_decidable (step s input).1 rest
    inferInstanceAs (Decidable (ok s input ∧ Along step ok (step s input).1 rest))

@[simp] theorem after_append (s : σ) (xs ys : List ι) :
    after step s (xs ++ ys) = after step (after step s xs) ys := by
  induction xs generalizing s with
  | nil => rfl
  | cons x xs next => exact next (step s x).1

@[simp] theorem emitted_append (s : σ) (xs ys : List ι) :
    emitted step s (xs ++ ys) = emitted step s xs ++ emitted step (after step s xs) ys := by
  induction xs generalizing s with
  | nil => rfl
  | cons x xs next => simp [emitted, after, next (step s x).1]

-- Where in a run an output comes from.
theorem mem_emitted {s : σ} {inputs : List ι} {out : ο} :
    out ∈ emitted step s inputs ↔
      ∃ past input rest, inputs = past ++ input :: rest ∧ out ∈ (step (after step s past) input).2 := by
  constructor
  · intro member
    induction inputs generalizing s with
    | nil => cases member
    | cons input rest next =>
      rcases List.mem_append.mp member with first | later
      · exact ⟨[], input, rest, rfl, first⟩
      · obtain ⟨past, other, left, split, sent⟩ := next later
        exact ⟨input :: past, other, left, by rw [split]; rfl, sent⟩
  · intro given
    obtain ⟨past, input, rest, rfl, sent⟩ := given
    rw [emitted_append]
    exact List.mem_append_right _ (List.mem_append_left _ sent)

theorem first_emitted {s : σ} {inputs : List ι} {out : ο} (member : out ∈ emitted step s inputs) :
    ∃ past input rest, inputs = past ++ input :: rest ∧ out ∈ (step (after step s past) input).2 ∧
      out ∉ emitted step s past := by
  induction inputs using List.reverseRecOn with
  | nil => cases member
  | append_singleton inputs last next =>
    by_cases earlier : out ∈ emitted step s inputs
    · obtain ⟨past, input, rest, split, sent, first⟩ := next earlier
      refine ⟨past, input, rest ++ [last], ?_, sent, first⟩
      rw [split, List.append_assoc, List.cons_append]
    · refine ⟨inputs, last, [], rfl, ?_, earlier⟩
      rw [emitted_append] at member
      simpa [emitted] using (List.mem_append.mp member).resolve_left earlier

theorem along_append {ok : σ → ι → Prop} (s : σ) (xs ys : List ι) :
    Along step ok s (xs ++ ys) ↔ Along step ok s xs ∧ Along step ok (after step s xs) ys := by
  induction xs generalizing s with
  | nil => simp [Along, after]
  | cons x xs next => simp [Along, after, next (step s x).1, and_assoc]

theorem along_true (s : σ) (xs : List ι) : Along step (fun _ _ => True) s xs := by
  induction xs generalizing s with
  | nil => trivial
  | cons x xs next => exact ⟨trivial, next _⟩

theorem along_and {ok also : σ → ι → Prop} {s : σ} {inputs : List ι} (one : Along step ok s inputs)
    (other : Along step also s inputs) : Along step (fun s input => ok s input ∧ also s input) s inputs := by
  induction inputs generalizing s with
  | nil => trivial
  | cons input rest next => exact ⟨⟨one.1, other.1⟩, next one.2 other.2⟩

theorem along_splits {ok : σ → ι → Prop} {s : σ} {inputs : List ι} :
    Along step ok s inputs ↔ ∀ past input rest, inputs = past ++ input :: rest → ok (after step s past) input := by
  constructor
  · intro along past input rest split
    rw [split, along_append] at along
    exact along.2.1
  · intro throughout
    induction inputs generalizing s with
    | nil => trivial
    | cons input rest next =>
      refine ⟨throughout [] input rest rfl, next ?_⟩
      intro past other left split
      exact throughout (input :: past) other left (congrArg (input :: ·) split)

theorem reached {ok : σ → ι → Prop} (Inv : σ → Prop)
    (kept : ∀ s input, ok s input → Inv s → Inv (step s input).1)
    {s : σ} (start : Inv s) {inputs : List ι} (along : Along step ok s inputs) :
    Inv (after step s inputs) := by
  induction inputs generalizing s with
  | nil => exact start
  | cons input rest next => exact next (kept s input along.1 start) along.2

-- What each step of a run does under an invariant.
theorem along_of {ok does : σ → ι → Prop} (Inv : σ → Prop) (kept : ∀ s input, ok s input → Inv s → Inv (step s input).1)
    {inputs : List ι} (gives : ∀ s, ∀ input ∈ inputs, ok s input → Inv s → does s input)
    {s : σ} (start : Inv s) (along : Along step ok s inputs) : Along step does s inputs := by
  induction inputs generalizing s with
  | nil => trivial
  | cons input rest next =>
    refine ⟨gives s input List.mem_cons_self along.1 start, ?_⟩
    exact next (fun s other later => gives s other (List.mem_cons_of_mem _ later)) (kept s input along.1 start) along.2

-- Where an invariant gives what is wanted, and a step from it to what is wanted is an `ok`
-- one, the wanted holds throughout a run exactly if all of its steps are `ok`.
theorem along_exact {ok : σ → ι → Prop} (Inv Wanted : σ → Prop) (gives : ∀ s, Inv s → Wanted s)
    (kept : ∀ s input, ok s input → Inv s → Inv (step s input).1)
    (needs : ∀ s input, Inv s → Wanted (step s input).1 → ok s input) {s : σ} (start : Inv s) (inputs : List ι) :
    (∀ past, past <+: inputs → Wanted (after step s past)) ↔ Along step ok s inputs := by
  constructor
  · intro throughout
    induction inputs generalizing s with
    | nil => trivial
    | cons input rest next =>
      have fine := needs s input start (throughout [input] (List.prefix_append [input] rest))
      refine ⟨fine, next (kept s input fine start) ?_⟩
      intro past within
      exact throughout (input :: past) ((List.prefix_cons_inj input).mpr within)
  · intro along past within
    obtain ⟨rest, rfl⟩ := within
    exact gives _ (reached Inv kept start ((along_append s past rest).mp along).1)

-- Where a step keeps the invariant exactly if it is an `ok` one, a run does so throughout
-- exactly if all of its steps are.
theorem along_iff {ok : σ → ι → Prop} (Inv : σ → Prop) (kept : ∀ s input, Inv s → (Inv (step s input).1 ↔ ok s input))
    {s : σ} (start : Inv s) (inputs : List ι) :
    Along step ok s inputs ↔ ∀ past, past <+: inputs → Inv (after step s past) :=
  (along_exact Inv Inv (fun _ held => held) (fun s input fine held => (kept s input held).mpr fine)
    (fun s input held after => (kept s input held).mp after) start inputs).symm

theorem emits {ok : σ → ι → Prop} (Inv : σ → Prop) (Out : ο → Prop)
    (kept : ∀ s input, ok s input → Inv s → Inv (step s input).1)
    (sent : ∀ s input, ok s input → Inv s → ∀ out ∈ (step s input).2, Out out)
    {s : σ} (start : Inv s) {inputs : List ι} (along : Along step ok s inputs) :
    ∀ out ∈ emitted step s inputs, Out out := by
  induction inputs generalizing s with
  | nil => simp [emitted]
  | cons input rest next =>
    intro out member
    rcases List.mem_append.mp member with first | later
    · exact sent s input along.1 start out first
    · exact next (kept s input along.1 start) along.2 out later

-- The same with the history behind a state: its inputs so far and what they emitted.
theorem traces (Inv : List ι → List ο → σ → Prop)
    (kept : ∀ past out s input, Inv past out s → Inv (past ++ [input]) (out ++ (step s input).2) (step s input).1)
    {s : σ} (start : Inv [] [] s) (inputs : List ι) : Inv inputs (emitted step s inputs) (after step s inputs) := by
  have from_past : ∀ (rest past : List ι) (out : List ο) (s : σ), Inv past out s →
      Inv (past ++ rest) (out ++ emitted step s rest) (after step s rest) := by
    intro rest
    induction rest with
    | nil =>
      intro past out s held
      simpa [after, emitted] using held
    | cons input rest next =>
      intro past out s held
      have later := next _ _ _ (kept past out s input held)
      simpa [after, emitted] using later
  exact from_past inputs [] [] s start

-- A task under way, that each of its own inputs brings nearer its end and that no other
-- input delays: what it results in comes out first, once it has been given as many of its
-- own as it has left.
theorem completes {ρ : Type*} (result : ο → Option ρ) (own : ι → Bool) (left : σ → ℕ) (Under : σ → List ι → Prop) (r : ρ)
    (moves : ∀ s input rest, Under s (input :: rest) →
      ((step s input).2.filterMap result).head? = some r ∨
        (step s input).2.filterMap result = [] ∧ Under (step s input).1 rest ∧
          left (step s input).1 + (if own input then 1 else 0) ≤ left s)
    (busy : ∀ s inputs, Under s inputs → 0 < left s) {s : σ} {inputs : List ι} (under : Under s inputs)
    (turns : left s ≤ inputs.countP own) :
    ((emitted step s inputs).filterMap result).head? = some r := by
  induction inputs generalizing s with
  | nil => exact absurd turns (Nat.not_le_of_lt (busy s [] under))
  | cons input rest next =>
    rw [emitted, List.filterMap_append]
    rcases moves s input rest under with done | ⟨silent, later, nearer⟩
    · rw [List.head?_append, done]
      rfl
    · rw [silent, List.nil_append]
      apply next later
      rw [List.countP_cons] at turns
      omega

theorem follows (Inv : List ι → σ → Prop)
    (kept : ∀ past s input, Inv past s → Inv (past ++ [input]) (step s input).1)
    {s : σ} (start : Inv [] s) (inputs : List ι) : Inv inputs (after step s inputs) :=
  traces (fun past _ s => Inv past s) (fun past _ s input held => kept past s input held) start inputs

end Machine
