import Mathlib.Data.List.Induction
import Corsair.Lib.Machine

-- A stream whose inputs may come again under the same key, against the stream of
-- their first occurrences.
namespace Firsts

variable {ι κ : Type*} [DecidableEq κ] (key : ι → Option κ)

-- An input without a key never counts as a repeat.
def repeats (past : List ι) (input : ι) : Bool := (key input).isSome ∧ key input ∈ past.map key

def firstsAfter (past : List ι) : List ι → List ι
  | [] => []
  | input :: rest =>
    if repeats key past input then firstsAfter (past ++ [input]) rest
    else input :: firstsAfter (past ++ [input]) rest

def firsts (inputs : List ι) : List ι := firstsAfter key [] inputs

variable {key} in
theorem repeats_keyed {past : List ι} {input : ι} (again : repeats key past input) : (key input).isSome := by
  unfold repeats at again
  simp only [decide_eq_true_eq] at again
  exact again.1

theorem firsts_snoc (inputs : List ι) (input : ι) :
    firsts key (inputs ++ [input]) =
      firsts key inputs ++ if repeats key inputs input then [] else [input] := by
  have from_past : ∀ (rest past : List ι), firstsAfter key past (rest ++ [input]) =
      firstsAfter key past rest ++ if repeats key (past ++ rest) input then [] else [input] := by
    intro rest
    induction rest with
    | nil =>
      intro past
      simp only [List.nil_append, List.append_nil, firstsAfter]
    | cons x rest next =>
      intro past
      simp only [List.cons_append, firstsAfter, next, List.append_assoc, List.nil_append]
      split
      · rfl
      · rfl
  exact from_past inputs []

section Run

variable {σ ο τ ρ : Type*} {step : σ → ι → σ × List ο}

-- Every repeat of the run is taken in a state that `ok` allows it in.
def RepeatsMeet (step : σ → ι → σ × List ο) (ok : σ → ι → Prop) (s : σ) (inputs : List ι) : Prop :=
  ∀ past input, past ++ [input] <+: inputs → repeats key past input → ok (Machine.after step s past) input

variable {key}

theorem RepeatsMeet.earlier {ok : σ → ι → Prop} {s : σ} {inputs : List ι} {last : ι}
    (meet : RepeatsMeet key step ok s (inputs ++ [last])) : RepeatsMeet key step ok s inputs := by
  intro past input taken again
  exact meet past input (taken.trans (List.prefix_append _ _)) again

-- Where repeats leave a view alone and every step respects it, the run and the
-- run over first occurrences keep showing the same.
theorem same_view {ok : σ → ι → Prop} (view : σ → τ)
    (respects : ∀ s t input, view s = view t → view (step s input).1 = view (step t input).1)
    (idle : ∀ s input, (key input).isSome → ok s input → view (step s input).1 = view s)
    (s : σ) (inputs : List ι) (meet : RepeatsMeet key step ok s inputs) :
    view (Machine.after step s inputs) = view (Machine.after step s (firsts key inputs)) := by
  induction inputs using List.reverseRecOn with
  | nil => rfl
  | append_singleton inputs last next =>
    have same := next meet.earlier
    have stepped : Machine.after step s (inputs ++ [last]) =
        (step (Machine.after step s inputs) last).1 := by
      rw [Machine.after_append]
      rfl
    rw [stepped, firsts_snoc]
    cases again : repeats key inputs last with
    | true =>
      have allowed := meet inputs last (List.prefix_refl _) again
      rw [idle _ _ (repeats_keyed again) allowed, same]
      simp
    | false =>
      rw [respects _ _ last same, Machine.after_append]
      rfl

theorem repeats_meet {ok : σ → ι → Prop} (view : σ → τ) (coarse : σ → ρ)
    (respects : ∀ s t input, view s = view t → view (step s input).1 = view (step t input).1)
    (idle : ∀ s input, (key input).isSome → ok s input → view (step s input).1 = view s)
    (coarser : ∀ s t, view s = view t → coarse s = coarse t) {s : σ} {inputs : List ι}
    (moves : ∀ s, ∀ input ∈ inputs, (key input).isSome → coarse (step s input).1 = coarse s → ok s input)
    (same : ∀ past, past <+: inputs →
      coarse (Machine.after step s past) = coarse (Machine.after step s (firsts key past))) :
    RepeatsMeet key step ok s inputs := by
  induction inputs using List.reverseRecOn with
  | nil =>
    intro past input taken
    simp at taken
  | append_singleton inputs last next =>
    have earlier : RepeatsMeet key step ok s inputs := by
      refine next ?_ ?_
      · intro s input member
        exact moves s input (List.mem_append_left _ member)
      · intro past taken
        exact same past (taken.trans (List.prefix_append _ _))
    intro past input taken again
    rcases List.prefix_concat_iff.mp taken with whole | before
    · obtain ⟨rfl, one⟩ := List.append_inj' whole rfl
      obtain rfl : input = last := List.singleton_inj.mp one
      have shown := same (past ++ [input]) taken
      have behind := coarser _ _ (same_view view respects idle s past earlier)
      rw [firsts_snoc, if_pos again, List.append_nil, Machine.after_append, ← behind] at shown
      exact moves _ input (by simp) (repeats_keyed again) shown
    · exact earlier past input before again

end Run

end Firsts
