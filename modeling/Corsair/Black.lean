import Corsair.Brent
import Mathlib.Tactic.NormNum

namespace Corsair.Black

-- The elementary functions of the pricing code, over any ordered field.
structure Elementary (𝕜 : Type*) where
  ln : 𝕜 → 𝕜
  exp : 𝕜 → 𝕜
  sqrt : 𝕜 → 𝕜
  powf : 𝕜 → 𝕜 → 𝕜
  normCdf : 𝕜 → 𝕜
  isFinite : 𝕜 → Bool

variable {𝕜 : Type*} [Field 𝕜] [LinearOrder 𝕜] (fn : Elementary 𝕜)

-- lib.rs
def black76PriceInner (f k t sigma r : 𝕜) (right : Char) : 𝕜 :=
  let isCall : Bool := right = 'C' ∨ right = 'c'
  if t ≤ 0 ∨ sigma ≤ 0 ∨ f ≤ 0 ∨ k ≤ 0 then
    if isCall then max (f - k) 0 else max (k - f) 0
  else
    let sqrtT := fn.sqrt t
    let d1 := (fn.ln (f / k) + 1/2 * sigma * sigma * t) / (sigma * sqrtT)
    let d2 := d1 - sigma * sqrtT
    let df := fn.exp (-r * t)
    if isCall then df * (f * fn.normCdf d1 - k * fn.normCdf d2)
    else df * (k * fn.normCdf (-d2) - f * fn.normCdf (-d1))

def isCall (right : String) : Bool := right = "C" ∨ right = "c"

def black76Price (f k t sigma r : 𝕜) (right : String) : 𝕜 :=
  black76PriceInner fn f k t sigma r (if isCall right then 'C' else 'P')

def intrinsic (f k : 𝕜) (right : String) : 𝕜 := if isCall right then max (f - k) 0 else max (k - f) 0

def impliedVol (marketPrice f k t r : 𝕜) (right : String) : Except Brent.Fault (Option 𝕜) :=
  if t ≤ 0 ∨ marketPrice ≤ 0 then .ok none
  else
    let df := fn.exp (-r * t)
    if marketPrice < df * intrinsic f k right - 1/10^10 then .ok none
    else do
      let run ← Brent.brent (fun sigma => black76Price fn f k t sigma r right - marketPrice) (1/100) 5 (1/10^6) 100
      return run.result

-- At a strike of zero or less an option is worth its intrinsic value.
theorem black76Price_nonpositive (f : 𝕜) {k : 𝕜} (nonpositive : k ≤ 0) (t sigma r : 𝕜) (right : String) :
    black76Price fn f k t sigma r right = intrinsic f k right := by
  unfold black76Price black76PriceInner intrinsic
  cases isCall right <;> simp [nonpositive]

section Ordered

variable [IsStrictOrderedRing 𝕜]

-- Every implied vol is between the ends of the search.
theorem impliedVol_within (marketPrice f k t r : 𝕜) (right : String) :
    ∃ vol, impliedVol fn marketPrice f k t r right = .ok vol ∧ ∀ iv ∈ vol, 1/100 ≤ iv ∧ iv ≤ 5 := by
  unfold impliedVol
  split
  · exact ⟨none, rfl, by simp⟩
  · simp only
    split
    · exact ⟨none, rfl, by simp⟩
    · let objective := fun sigma => black76Price fn f k t sigma r right - marketPrice
      by_cases unbracketed : 0 ≤ objective (1/100) * objective 5
      · rw [Brent.brent_rejected unbracketed]
        exact ⟨none, rfl, by simp⟩
      · obtain ⟨run, -, searched, sound, -⟩ := Brent.brent_bracketed (not_le.mp unbracketed) (1/10^6) 100
        rw [searched]
        refine ⟨run.result, rfl, ?_⟩
        intro iv same
        have within := sound.held iv same
        rwa [Set.uIcc_of_le (by norm_num)] at within

end Ordered

end Corsair.Black
