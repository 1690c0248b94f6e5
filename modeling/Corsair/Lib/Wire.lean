import Mathlib.Algebra.Order.Ring.Int
import Mathlib.Data.List.Basic

-- Bodies of named fields, and structs read off them field by field. `φ` is the
-- type of floating-point values.
namespace Wire

inductive Value (φ : Type) where
  | nil
  | bool (b : Bool)
  | int (n : ℤ)
  | float (x : φ)
  | str (s : String)
  | map (fields : List (String × Value φ))

abbrev Body (φ : Type) := List (String × Value φ)

inductive DecodeError where
  | missingField (name : String)
  | invalidType (name : String)
  deriving DecidableEq

abbrev Decoded (α : Type) := Except DecodeError α

section Readers

variable {φ : Type}

def asStr : Value φ → Option String
  | .str s => some s
  | _ => none

def asBool : Value φ → Option Bool
  | .bool b => some b
  | _ => none

def asInt (low high : ℤ) : Value φ → Option ℤ
  | .int n => if low ≤ n ∧ n ≤ high then some n else none
  | _ => none

def asNat (bits : ℕ) (v : Value φ) : Option ℕ := (asInt 0 (2^bits - 1) v).map Int.toNat

-- An integer is taken where a float is asked for, and not the other way.
def asFloat (ofInt : ℤ → φ) : Value φ → Option φ
  | .float x => some x
  | .int n => some (ofInt n)
  | _ => none

def asMap : Value φ → Option (Body φ)
  | .map fields => some fields
  | _ => none

end Readers

section Fields

variable {φ : Type} {α : Type} (body : Body φ) (name : String) (read : Value φ → Option α)

-- Fields nobody asks for are passed over.
def find : Option (Value φ) := (List.find? (·.1 = name) body).map (·.2)

def readAs (v : Value φ) : Decoded α :=
  match read v with
  | some a => .ok a
  | none => .error (.invalidType name)

def required : Decoded α :=
  match find body name with
  | some v => readAs name read v
  | none => .error (.missingField name)

def defaulted (default : α) : Decoded α :=
  match find body name with
  | some v => readAs name read v
  | none => .ok default

def optional : Decoded (Option α) :=
  match find body name with
  | some .nil | none => .ok none
  | some v => (readAs name read v).map some

end Fields

section Laws

variable {φ α : Type} {body : Body φ} {name : String}

theorem find_cons (entry : String × Value φ) :
    find (entry :: body) name = if entry.1 = name then some entry.2 else find body name := by
  unfold find
  by_cases own : entry.1 = name
  · simp [own]
  · simp [own]

theorem find_absent (absent : name ∉ body.map Prod.fst) : find body name = none := by
  induction body with
  | nil => rfl
  | cons entry rest next =>
    rw [List.map_cons, List.mem_cons, not_or] at absent
    rw [find_cons, if_neg (Ne.symm absent.1)]
    exact next absent.2

-- A read that goes through has gone through each of its fields.
theorem bind_ok {β : Type} {read : Decoded α} {rest : α → Decoded β} {b : β} (decoded : read >>= rest = .ok b) :
    ∃ a, read = .ok a ∧ rest a = .ok b := by
  cases read with
  | ok a => exact ⟨a, rfl, decoded⟩
  | error e => cases decoded

theorem required_absent {read : Value φ → Option α} (absent : name ∉ body.map Prod.fst) :
    required body name read = .error (.missingField name) := by
  unfold required
  rw [find_absent absent]

theorem asNat_int {bits n : ℕ} (fits : n < 2^bits) : asNat bits (.int n : Value φ) = some n := by
  have within : (0 : ℤ) ≤ n ∧ (n : ℤ) ≤ 2^bits - 1 := by
    have : (n : ℤ) < 2^bits := by exact_mod_cast fits
    omega
  simp [asNat, asInt, within]

end Laws

end Wire
