import Mathlib.Data.List.Basic
import Mathlib.Data.List.Perm.Basic

-- Bounded channels, and the books kept of what goes through them.
namespace Channel

variable {α : Type*}

-- A queue whose sender does not wait: what finds it full is handed back.
structure Queue (cap : ℕ) (α : Type*) where
  items : List α
  bounded : items.length ≤ cap

namespace Queue

variable {cap : ℕ}

def empty : Queue cap α := ⟨[], Nat.zero_le _⟩

def trySend (q : Queue cap α) (x : α) : Option (Queue cap α) :=
  if room : q.items.length < cap then some ⟨q.items ++ [x], by rwa [List.length_append]⟩ else none

def recv (q : Queue cap α) : Option (α × Queue cap α) :=
  match q with
  | ⟨[], _⟩ => none
  | ⟨x :: rest, bounded⟩ => some (x, ⟨rest, Nat.le_of_succ_le bounded⟩)

theorem trySend_items {q next : Queue cap α} {x : α} (sent : q.trySend x = some next) :
    next.items = q.items ++ [x] := by
  unfold trySend at sent
  split at sent
  · cases sent
    rfl
  · cases sent

theorem trySend_room {q : Queue cap α} {x : α} (room : q.items.length < cap) :
    ∃ next, q.trySend x = some next ∧ next.items = q.items ++ [x] := by
  unfold trySend
  rw [dif_pos room]
  exact ⟨_, rfl, rfl⟩

theorem trySend_full {q : Queue cap α} {x : α} : q.trySend x = none ↔ q.items.length = cap := by
  have bound := q.bounded
  unfold trySend
  split
  · rename_i room
    constructor
    · intro sent
      cases sent
    · intro full
      omega
  · rename_i full
    simp only [true_iff]
    omega

theorem recv_items {q next : Queue cap α} {x : α} (taken : q.recv = some (x, next)) :
    q.items = x :: next.items := by
  obtain ⟨items, bounded⟩ := q
  cases items with
  | nil => cases taken
  | cons first rest =>
    cases taken
    rfl

theorem recv_empty {q : Queue cap α} : q.recv = none ↔ q.items = [] := by
  obtain ⟨items, bounded⟩ := q
  cases items with
  | nil => exact ⟨fun _ => rfl, fun _ => rfl⟩
  | cons first rest => exact ⟨nofun, nofun⟩

end Queue

-- A queue with its senders counted. It stays open while one of them is left; what
-- is in it can be taken after that too.
structure Mpsc (cap : ℕ) (α : Type*) where
  queue : Queue cap α
  senders : ℕ

inductive Taken (α : Type*) where
  | value (x : α)
  | pending
  | closed

namespace Mpsc

variable {cap : ℕ}

def new : Mpsc cap α := ⟨.empty, 1⟩

def cloned (c : Mpsc cap α) : Mpsc cap α := { c with senders := c.senders + 1 }
def dropped (c : Mpsc cap α) : Mpsc cap α := { c with senders := c.senders - 1 }

def recv (c : Mpsc cap α) : Mpsc cap α × Taken α :=
  match c.queue.recv with
  | some (x, queue) => ({ c with queue }, .value x)
  | none => (c, if c.senders = 0 then .closed else .pending)

theorem recv_senders (c : Mpsc cap α) : c.recv.1.senders = c.senders := by
  unfold recv
  split <;> rfl

theorem recv_drained {c : Mpsc cap α} (drained : c.queue.items = []) :
    c.recv = (c, if c.senders = 0 then .closed else .pending) := by
  unfold recv
  split
  · rename_i taken
    rw [Queue.recv_items taken] at drained
    cases drained
  · rfl

theorem recv_closed {c next : Mpsc cap α} (taken : c.recv = (next, .closed)) : c.senders = 0 := by
  unfold recv at taken
  split at taken
  · cases taken
  · split at taken
    · assumption
    · cases taken

end Mpsc

-- What one receiver of a broadcast still has to take: the newest values up to the
-- channel's capacity, and how many were overwritten since it was last told.
structure Receiver (cap : ℕ) (α : Type*) where
  pending : List α
  missed : ℕ
  bounded : pending.length ≤ cap

inductive Received (α : Type*) where
  | value (x : α)
  | lagged (count : ℕ)
  | waiting

namespace Receiver

variable {cap : ℕ}

def new : Receiver cap α := ⟨[], 0, Nat.zero_le _⟩

def send (r : Receiver cap α) (x : α) : Receiver cap α × List α :=
  let all := r.pending ++ [x]
  let excess := all.length - cap
  (⟨all.drop excess, r.missed + excess, by simp only [excess, List.length_drop]; omega⟩, all.take excess)

def sendAll (r : Receiver cap α) : List α → Receiver cap α × List α
  | [] => (r, [])
  | x :: rest =>
    let (next, out) := r.send x
    let (last, more) := next.sendAll rest
    (last, out ++ more)

-- A receiver that has missed values is told so before it gets the next one.
def recv (r : Receiver cap α) : Receiver cap α × Received α :=
  if r.missed ≠ 0 then ({ r with missed := 0 }, .lagged r.missed)
  else match r with
    | ⟨[], _, _⟩ => (r, .waiting)
    | ⟨x :: rest, missed, bounded⟩ => (⟨rest, missed, Nat.le_of_succ_le bounded⟩, .value x)

theorem sendAll_pending (r : Receiver cap α) (xs : List α) :
    (r.sendAll xs).2 ++ (r.sendAll xs).1.pending = r.pending ++ xs := by
  induction xs generalizing r with
  | nil => simp [sendAll]
  | cons x rest next =>
    simp only [sendAll, List.append_assoc, next, send]
    rw [← List.append_assoc, List.take_append_drop, List.append_assoc]
    rfl

theorem sendAll_missed (r : Receiver cap α) (xs : List α) :
    (r.sendAll xs).1.missed = r.missed + (r.sendAll xs).2.length := by
  induction xs generalizing r with
  | nil => rfl
  | cons x rest next =>
    simp only [sendAll, next, send, List.length_append, List.length_take]
    omega

theorem send_overwrites {r : Receiver cap α} {x lost : α} (out : lost ∈ (r.send x).2) :
    r.pending.length = cap := by
  have bound := r.bounded
  have excess := List.length_pos_of_mem out
  simp only [send, List.length_take, List.length_append, List.length_singleton] at excess
  omega

theorem send_room {r : Receiver cap α} {x : α} : (r.send x).2 = [] ↔ r.pending.length < cap := by
  have bound := r.bounded
  rw [← List.length_eq_zero_iff]
  simp only [send, List.length_take, List.length_append, List.length_singleton]
  omega

theorem sendAll_overwrites {r : Receiver cap α} {xs : List α} (one : xs.length ≤ 1) {lost : α}
    (out : lost ∈ (r.sendAll xs).2) : r.pending.length = cap := by
  match xs, one with
  | [], _ => cases out
  | [x], _ =>
    simp only [sendAll, List.append_nil] at out
    exact send_overwrites out

end Receiver

-- What was sent is, in order, what is kept, and beyond that what was lost.
structure Accounted (sent kept lost : List α) : Prop where
  ordered : kept.Sublist sent
  complete : sent.Perm (kept ++ lost)

namespace Accounted

variable {sent kept lost : List α}

theorem start : Accounted ([] : List α) [] [] := ⟨.refl _, .refl _⟩

theorem accept (books : Accounted sent kept lost) (xs : List α) : Accounted (sent ++ xs) (kept ++ xs) lost := by
  refine ⟨books.ordered.append (.refl _), ?_⟩
  have swapped : (kept ++ xs ++ lost).Perm (kept ++ lost ++ xs) := by
    rw [List.append_assoc, List.append_assoc]
    exact (List.perm_append_comm).append_left kept
  exact (books.complete.append_right xs).trans swapped.symm

theorem refuse (books : Accounted sent kept lost) (xs : List α) : Accounted (sent ++ xs) kept (lost ++ xs) := by
  refine ⟨books.ordered.trans (List.sublist_append_left _ _), ?_⟩
  rw [← List.append_assoc]
  exact books.complete.append_right xs

theorem forfeit {before out later : List α} (books : Accounted sent (before ++ out ++ later) lost) :
    Accounted sent (before ++ later) (lost ++ out) := by
  refine ⟨List.Sublist.trans ?_ books.ordered, ?_⟩
  · exact (List.sublist_append_left before out).append (.refl later)
  · have moved : (before ++ out ++ later ++ lost).Perm (before ++ later ++ (lost ++ out)) := by
      simp only [List.append_assoc]
      apply List.Perm.append_left
      refine List.perm_append_comm.trans ?_
      simp only [List.append_assoc]
      exact .refl _
    exact books.complete.trans moved

theorem whole (books : Accounted sent kept []) : kept = sent := by
  apply books.ordered.eq_of_length
  simpa using books.complete.length_eq.symm

end Accounted

end Channel
