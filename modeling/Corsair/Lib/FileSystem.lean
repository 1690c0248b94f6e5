import Mathlib.Data.List.Basic
import Mathlib.Logic.Function.Basic

-- A file system as a process that may lose its power sees it: a name leads to an inode, a
-- file keeps what was synced, and a directory may come back as it was at some earlier point.
namespace FileSystem

structure File (α : Type*) where
  content : List α
  synced : Bool

structure Disk (Name α : Type*) where
  files : ℕ → File α
  next : ℕ
  dir : Name → Option ℕ
  earlier : List (Name → Option ℕ)

variable {Name α : Type*}

namespace Disk

def empty : Disk Name α := ⟨fun _ => ⟨[], false⟩, 0, fun _ => none, []⟩

def read (d : Disk Name α) (name : Name) : Option (List α) := (d.dir name).map fun i => (d.files i).content

-- What was not synced may be anything after.
def powerLoss (d : Disk Name α) (point : ℕ) (torn : ℕ → File α) : Disk Name α where
  files i := if (d.files i).synced then d.files i else torn i
  next := d.next
  dir := (d.dir :: d.earlier).getD point d.dir
  earlier := []

-- Every directory a power loss may bring back, with the one there is.
def directories (d : Disk Name α) : List (Name → Option ℕ) := d.dir :: d.earlier

theorem powerLoss_dir (d : Disk Name α) (point : ℕ) (torn : ℕ → File α) :
    (d.powerLoss point torn).dir ∈ d.directories := by
  unfold powerLoss directories
  rw [List.getD_eq_getElem?_getD]
  cases found : (d.dir :: d.earlier)[point]? with
  | none => exact List.mem_cons_self
  | some dir => exact List.mem_of_getElem? found

def setFile (d : Disk Name α) (i : ℕ) (file : File α) : Disk Name α :=
  { d with files := Function.update d.files i file }

variable [DecidableEq Name]

def setDir (d : Disk Name α) (dir : Name → Option ℕ) : Disk Name α := { d with dir, earlier := d.dir :: d.earlier }

def added (d : Disk Name α) (name : Name) : Disk Name α where
  files := Function.update d.files d.next ⟨[], false⟩
  next := d.next + 1
  dir := Function.update d.dir name (some d.next)
  earlier := d.dir :: d.earlier

-- Opening for writing from the start empties a file that is there.
def create (d : Disk Name α) (name : Name) : Disk Name α × ℕ :=
  match d.dir name with
  | some i => (d.setFile i ⟨[], false⟩, i)
  | none => (d.added name, d.next)

def append (d : Disk Name α) (i : ℕ) (chunk : List α) : Disk Name α :=
  d.setFile i ⟨(d.files i).content ++ chunk, false⟩

def sync (d : Disk Name α) (i : ℕ) : Disk Name α := d.setFile i ⟨(d.files i).content, true⟩

def rename (d : Disk Name α) (source target : Name) : Disk Name α :=
  d.setDir (Function.update (Function.update d.dir target (d.dir source)) source none)

end Disk

section Replace

variable {target temp : Name} {Allowed : List α → Prop} {d : Disk Name α}

-- A file that is only ever replaced by renaming a synced one over it: whatever directory comes
-- back, it holds one of the contents it is allowed, and the temporary is another file.
structure Replaced (target temp : Name) (Allowed : List α → Prop) (d : Disk Name α) : Prop where
  whole : ∀ dir ∈ d.directories, ∀ i, dir target = some i → (d.files i).synced = true ∧ Allowed (d.files i).content
  apart : ∀ dir ∈ d.directories, ∀ i, dir target = some i → dir temp ≠ some i
  free : ∀ dir ∈ d.directories, ∀ i, dir target = some i → d.dir temp ≠ some i
  known : ∀ dir ∈ d.directories, ∀ name i, dir name = some i → i < d.next

theorem empty_replaced : Replaced target temp Allowed (.empty : Disk Name α) := by
  constructor <;> simp [Disk.empty, Disk.directories]

theorem Replaced.read (held : Replaced target temp Allowed d) {content : List α} (found : d.read target = some content) :
    Allowed content := by
  obtain ⟨i, entry, same⟩ := Option.map_eq_some_iff.mp found
  exact same ▸ (held.whole d.dir List.mem_cons_self i entry).2

theorem Replaced.mono {More : List α → Prop} (held : Replaced target temp Allowed d)
    (allows : ∀ content, Allowed content → More content) : Replaced target temp More d where
  whole dir member i entry := (held.whole dir member i entry).imp_right (allows _)
  apart := held.apart
  free := held.free
  known := held.known

theorem setFile_read (held : Replaced target temp Allowed d) {h : ℕ} (opened : d.dir temp = some h) (file : File α) :
    (d.setFile h file).read target = d.read target := by
  unfold Disk.read
  cases entry : d.dir target with
  | none => simp [Disk.setFile, entry]
  | some i =>
    have other : i ≠ h := by
      intro same
      exact held.free d.dir List.mem_cons_self i entry (same ▸ opened)
    simp [Disk.setFile, entry, Function.update_of_ne other]

-- Writing the temporary touches no file that is or was the target.
theorem setFile_replaced (held : Replaced target temp Allowed d) {h : ℕ} (opened : d.dir temp = some h)
    (file : File α) : Replaced target temp Allowed (d.setFile h file) := by
  constructor
  · intro dir member i entry
    have other : i ≠ h := by
      intro same
      exact held.free dir member i entry (same ▸ opened)
    have untouched : (d.setFile h file).files i = d.files i := Function.update_of_ne other _ _
    rw [untouched]
    exact held.whole dir member i entry
  · exact held.apart
  · exact held.free
  · exact held.known

theorem powerLoss_replaced (held : Replaced target temp Allowed d) (point : ℕ) (torn : ℕ → File α) :
    Replaced target temp Allowed (d.powerLoss point torn) := by
  have back := d.powerLoss_dir point torn
  constructor
  all_goals
    intro dir member
    have only : dir = (d.powerLoss point torn).dir := List.mem_singleton.mp member
    subst only
  · intro i entry
    obtain ⟨synced, allowed⟩ := held.whole _ back i entry
    have kept : (d.powerLoss point torn).files i = d.files i := if_pos synced
    rw [kept]
    exact ⟨synced, allowed⟩
  · exact held.apart _ back
  · exact held.apart _ back
  · exact held.known _ back

variable [DecidableEq Name]

theorem create_opens (d : Disk Name α) (name : Name) : (d.create name).1.dir name = some (d.create name).2 := by
  unfold Disk.create
  cases found : d.dir name with
  | none => exact Function.update_self _ _ _
  | some i => exact found

theorem create_empty (d : Disk Name α) (name : Name) : ((d.create name).1.files (d.create name).2).content = [] := by
  unfold Disk.create
  cases d.dir name with
  | none => simp [Disk.added]
  | some i => simp [Disk.setFile]

theorem create_read (held : Replaced target temp Allowed d) (distinct : target ≠ temp) :
    (d.create temp).1.read target = d.read target := by
  unfold Disk.create
  cases found : d.dir temp with
  | some i => exact setFile_read held found _
  | none =>
    have kept : (d.added temp).dir target = d.dir target := Function.update_of_ne distinct _ _
    change (d.added temp).read target = d.read target
    unfold Disk.read
    rw [kept]
    cases entry : d.dir target with
    | none => rfl
    | some i =>
      have older := Nat.ne_of_lt (held.known d.dir List.mem_cons_self target i entry)
      simp [Disk.added, Function.update_of_ne older]

theorem rename_read (distinct : target ≠ temp) {h : ℕ} (opened : d.dir temp = some h) :
    (d.rename temp target).read target = some (d.files h).content := by
  have entry : (d.rename temp target).dir target = some h := by
    change Function.update (Function.update d.dir target (d.dir temp)) temp none target = some h
    rw [Function.update_of_ne distinct, Function.update_self, opened]
  unfold Disk.read
  rw [entry]
  rfl

theorem added_replaced (held : Replaced target temp Allowed d) (distinct : target ≠ temp) :
    Replaced target temp Allowed (d.added temp) := by
  have inherited : ∀ dir ∈ (d.added temp).directories, ∀ i, dir target = some i →
      ∃ other ∈ d.directories, other target = some i := by
    intro dir member i entry
    rcases List.mem_cons.mp member with own | earlier
    · rw [own] at entry
      exact ⟨d.dir, List.mem_cons_self, (Function.update_of_ne distinct _ _).symm.trans entry⟩
    · exact ⟨dir, earlier, entry⟩
  have fresh : ∀ dir ∈ (d.added temp).directories, ∀ i, dir target = some i → d.next ≠ i := by
    intro dir member i entry
    obtain ⟨other, present, same⟩ := inherited dir member i entry
    exact (Nat.ne_of_lt (held.known other present target i same)).symm
  have opened : (d.added temp).dir temp = some d.next := Function.update_self _ _ _
  constructor
  · intro dir member i entry
    obtain ⟨other, present, same⟩ := inherited dir member i entry
    have untouched : (d.added temp).files i = d.files i := Function.update_of_ne (fresh dir member i entry).symm _ _
    rw [untouched]
    exact held.whole other present i same
  · intro dir member i entry
    rcases List.mem_cons.mp member with own | earlier
    · rw [own, opened]
      exact fun clash => fresh dir member i entry (Option.some.inj clash)
    · exact held.apart dir earlier i entry
  · intro dir member i entry
    rw [opened]
    exact fun clash => fresh dir member i entry (Option.some.inj clash)
  · intro dir member name i entry
    apply Nat.lt_succ_iff.mpr
    rcases List.mem_cons.mp member with own | earlier
    · rw [own] at entry
      by_cases here : name = temp
      · rw [here, opened] at entry
        exact Nat.le_of_eq (Option.some.inj entry).symm
      · exact Nat.le_of_lt (held.known d.dir List.mem_cons_self name i ((Function.update_of_ne here _ _).symm.trans entry))
    · exact Nat.le_of_lt (held.known dir earlier name i entry)

theorem create_replaced (held : Replaced target temp Allowed d) (distinct : target ≠ temp) :
    Replaced target temp Allowed (d.create temp).1 := by
  unfold Disk.create
  cases found : d.dir temp with
  | some i => exact setFile_replaced held found _
  | none => exact added_replaced held distinct

theorem rename_replaced (held : Replaced target temp Allowed d) (distinct : target ≠ temp) {h : ℕ}
    (opened : d.dir temp = some h) (synced : (d.files h).synced = true) (allowed : Allowed (d.files h).content) :
    Replaced target temp Allowed (d.rename temp target) := by
  have renamed : (d.rename temp target).dir target = some h := by
    change Function.update (Function.update d.dir target (d.dir temp)) temp none target = some h
    rw [Function.update_of_ne distinct, Function.update_self, opened]
  have gone : (d.rename temp target).dir temp = none := Function.update_self _ _ _
  constructor
  · intro dir member i entry
    rcases List.mem_cons.mp member with own | earlier
    · subst own
      cases renamed.symm.trans entry
      exact ⟨synced, allowed⟩
    · exact held.whole dir earlier i entry
  · intro dir member i entry
    rcases List.mem_cons.mp member with own | earlier
    · subst own
      rw [gone]
      simp
    · exact held.apart dir earlier i entry
  · intro dir member i entry
    rw [gone]
    simp
  · intro dir member name i entry
    rcases List.mem_cons.mp member with own | earlier
    · subst own
      have source : d.dir name = some i ∨ d.dir temp = some i := by
        change Function.update (Function.update d.dir target (d.dir temp)) temp none name = some i at entry
        by_cases one : name = temp
        · subst one
          rw [Function.update_self] at entry
          cases entry
        · rw [Function.update_of_ne one] at entry
          by_cases two : name = target
          · subst two
            rw [Function.update_self] at entry
            exact .inr entry
          · rw [Function.update_of_ne two] at entry
            exact .inl entry
      rcases source with kept | moved
      · exact held.known d.dir List.mem_cons_self name i kept
      · exact held.known d.dir List.mem_cons_self temp i moved
    · exact held.known dir earlier name i entry

end Replace

end FileSystem
