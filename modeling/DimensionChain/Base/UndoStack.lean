import Mathlib

/-!
# A database with undo sessions

A session remembers the content at its start. When each step of a history opens one session, the
remembered contents are those of the steps before, newest first: `Tracks`, for a content that is a
function of the history. Steps whose sessions are committed can no longer be taken back.
-/

namespace DimensionChain

open List

structure UndoStack (α : Type) where
  current : α
  saved : List α := []
  revision : Nat

namespace UndoStack
variable {α β : Type}

section Operations
variable (u : UndoStack α)

def startUndoSession : UndoStack α := ⟨u.current, u.current :: u.saved, u.revision + 1⟩

def modify (g : α → α) : UndoStack α := { u with current := g u.current }

def undo : UndoStack α :=
  match u.saved with
  | [] => u
  | a :: saved => ⟨a, saved, u.revision - 1⟩

def commit (revision : Nat) : UndoStack α :=
  { u with saved := u.saved.take (u.revision - revision) }

end Operations

structure Tracks (f : List β → α) (u : UndoStack α) (past : List β) : Prop where
  current : u.current = f past
  revision : u.revision = past.length
  saved : u.saved <+: past.tails.tail.map f

structure Opens (f : List β → α) (u : UndoStack α) (past : List β) : Prop where
  revision : u.revision = past.length + 1
  saved : u.saved <+: past.tails.map f
  nonempty : u.saved ≠ []

variable {f : List β → α} {u : UndoStack α} {past : List β} {b : β} {n : Nat}

lemma tails_eq (past : List β) : past.tails = past :: past.tails.tail := by
  cases past <;> rfl

lemma Tracks.startUndoSession (h : Tracks f u past) : Opens f u.startUndoSession past := by
  refine ⟨?_, ?_, cons_ne_nil _ _⟩
  · change u.revision + 1 = _
    rw [h.revision]
  · change u.current :: u.saved <+: _
    rw [tails_eq, map_cons, h.current]
    exact (prefix_cons_inj _).mpr h.saved

variable (h : Opens f u past)
include h

lemma Opens.modify (g : α → α) : Opens f (u.modify g) past :=
  ⟨h.revision, h.saved, h.nonempty⟩

lemma Opens.undo : Tracks f u.undo past := by
  unfold UndoStack.undo
  cases hsaved : u.saved with
  | nil => exact absurd hsaved h.nonempty
  | cons a saved =>
    have hsplit := h.saved
    rw [hsaved, tails_eq, map_cons, cons_prefix_cons] at hsplit
    refine ⟨hsplit.1, ?_, hsplit.2⟩
    rw [h.revision, Nat.add_sub_cancel]

lemma Opens.push (hcurrent : u.current = f (b :: past)) : Tracks f u (b :: past) :=
  ⟨hcurrent, h.revision, h.saved⟩

omit h in
lemma Tracks.opens (h : Tracks f u (b :: past)) (hne : u.saved ≠ []) : Opens f u past :=
  ⟨h.revision, h.saved, hne⟩

omit h in
lemma Tracks.commit (h : Tracks f u past) (n : Nat) : Tracks f (u.commit n) past :=
  ⟨h.current, h.revision, (List.take_prefix _ _).trans h.saved⟩

lemma Opens.commit (hn : n ≤ past.length) : Opens f (u.commit n) past := by
  refine ⟨h.revision, (List.take_prefix _ _).trans h.saved, ?_⟩
  apply ne_nil_of_length_pos
  have hpos := length_pos_of_ne_nil h.nonempty
  have hrevision := h.revision
  change 0 < (u.saved.take (u.revision - n)).length
  rw [length_take]
  omega

end UndoStack

end DimensionChain
