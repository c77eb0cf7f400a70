import MatrixScript.Proofs.Typing.Once

/-! What lies inside what.

A signal leaves every statement around it up to the nearest loop. So it gets out of the program when there is a way
from the program to it that enters no loop. In the tree of a program there is one way only, so this is to say that no
loop is around the signal.
-/

set_option autoImplicit false

namespace MatrixScript

open Typing Grammar

def StmtKind.isLoop : StmtKind → Bool
  | .forRange _ _ _ | .whileLoop _ _ => true
  | .block _ | .assign _ _ _ | .branch _ _ _ | .breakLoop | .continueLoop | .giveBack _ | .print _ => false

def StmtKind.isSignal : StmtKind → Bool
  | .breakLoop | .continueLoop => true
  | .block _ | .assign _ _ _ | .forRange _ _ _ | .whileLoop _ _ | .branch _ _ _ | .giveBack _ | .print _ => false

namespace Tree

variable (tree : Tree)

def IsLoop (id : StmtId) : Prop := ∃ kind, tree.stmtKind? id = some kind ∧ kind.isLoop

def IsSignal (id : StmtId) : Prop := ∃ kind, tree.stmtKind? id = some kind ∧ kind.isSignal

/-- A statement stands right inside another one. -/
def Encloses (parent body : StmtId) : Prop := ∃ kind, tree.stmtKind? parent = some kind ∧ body ∈ kind.bodies

inductive Reachable : StmtId → Prop where
  | program {id : StmtId} : id ∈ tree.body → Reachable id
  | inside {parent id : StmtId} : Reachable parent → tree.Encloses parent id → Reachable id

/-- A statement is another one or lies inside it, at any depth. -/
inductive Below (top : StmtId) : StmtId → Prop where
  | self : Below top top
  | inside {parent id : StmtId} : Below top parent → tree.Encloses parent id → Below top id

def InLoop (id : StmtId) : Prop :=
  ∃ loop body, tree.Reachable loop ∧ tree.IsLoop loop ∧ tree.Encloses loop body ∧ tree.Below body id

/-- There is a way from the program to the statement that enters no loop. -/
inductive Exposed : StmtId → Prop where
  | program {id : StmtId} : id ∈ tree.body → Exposed id
  | inside {parent id : StmtId} : Exposed parent → ¬tree.IsLoop parent → tree.Encloses parent id → Exposed id

inductive Leaks : StmtId → Prop where
  | signal {id : StmtId} : tree.IsSignal id → Leaks id
  | inside {id body : StmtId} : ¬tree.IsLoop id → tree.Encloses id body → Leaks body → Leaks id

variable {tree} {id parent body : StmtId}

theorem Exposed.reachable (exposed : tree.Exposed id) : tree.Reachable id := by
  induction exposed with
  | program member => exact .program member
  | inside _ _ encloses ih => exact .inside ih encloses

theorem Reachable.descend (reachable : tree.Reachable parent) (below : tree.Below parent id) : tree.Reachable id := by
  induction below with
  | self => exact reachable
  | inside _ encloses ih => exact .inside ih encloses

theorem Reachable.exposed_or_inLoop (reachable : tree.Reachable id) : tree.Exposed id ∨ tree.InLoop id := by
  induction reachable with
  | program member => exact .inl (.program member)
  | @inside parent id reachable encloses ih =>
    rcases ih with exposed | ⟨loop, body, reachable, isLoop, held, below⟩
    · by_cases isLoop : tree.IsLoop parent
      · exact .inr ⟨parent, id, reachable, isLoop, encloses, .self⟩
      · exact .inl (.inside exposed isLoop encloses)
    · exact .inr ⟨loop, body, reachable, isLoop, held, .inside below encloses⟩

theorem Leaks.exposed (leaks : tree.Leaks id) (exposed : tree.Exposed id) :
    ∃ last, tree.Exposed last ∧ tree.IsSignal last := by
  induction leaks with
  | signal isSignal => exact ⟨_, exposed, isSignal⟩
  | inside noLoop encloses _ ih => exact ih (.inside exposed noLoop encloses)

theorem Exposed.leaks (exposed : tree.Exposed id) (leaks : tree.Leaks id) : ∃ top ∈ tree.body, tree.Leaks top := by
  induction exposed with
  | program member => exact ⟨_, member, leaks⟩
  | inside _ noLoop encloses ih => exact ih (.inside noLoop encloses leaks)

theorem leaks_iff {kind : StmtKind} (node : tree.stmtKind? id = some kind) :
    tree.Leaks id ↔ kind.isSignal ∨ ¬kind.isLoop ∧ ∃ body ∈ kind.bodies, tree.Leaks body := by
  constructor
  · rintro (⟨known, found, isSignal⟩ | ⟨noLoop, ⟨known, found, member⟩, leaks⟩)
    · cases node.symm.trans found
      exact .inl isSignal
    · cases node.symm.trans found
      exact .inr ⟨fun isLoop => noLoop ⟨kind, node, isLoop⟩, _, member, leaks⟩
  · rintro (isSignal | ⟨noLoop, body, member, leaks⟩)
    · exact .signal ⟨kind, node, isSignal⟩
    · refine .inside ?_ ⟨kind, node, member⟩ leaks
      rintro ⟨known, found, isLoop⟩
      cases node.symm.trans found
      exact noLoop isLoop

end Tree

section

variable {tree : Tree} {phrases : List Phrase} {id parent body : StmtId}

theorem layout_body {lo hi : Mark} {phrase : Phrase} (layout : StmtLayout tree lo hi id phrase)
    (encloses : tree.Encloses id body) : ∃ lo hi phrase, StmtLayout tree lo hi body phrase := by
  obtain ⟨kind, node, member⟩ := encloses
  have parts := layout.parts node
  cases kind with
  | block ids =>
    obtain ⟨phrases, stretch⟩ := parts
    obtain ⟨before, after, rfl⟩ := List.append_of_mem member
    obtain ⟨first, second, phrase, _, _, _, here, _⟩ := stretch.split
    exact ⟨first, second, phrase, here⟩
  | forRange name range inner =>
    obtain ⟨_, _, _, _, _, _, _, _, _, _, _, inside⟩ := parts
    cases List.mem_singleton.mp member
    exact ⟨_, _, _, inside⟩
  | whileLoop condition inner =>
    obtain ⟨_, _, _, _, inside⟩ := parts
    cases List.mem_singleton.mp member
    exact ⟨_, _, _, inside⟩
  | branch condition thenBody elseBody =>
    cases elseBody with
    | none =>
      obtain ⟨_, _, _, _, inside⟩ := parts
      cases List.mem_singleton.mp member
      exact ⟨_, _, _, inside⟩
    | some elseBody =>
      obtain ⟨_, _, _, _, _, _, first, second⟩ := parts
      rcases List.mem_cons.mp member with rfl | member
      · exact ⟨_, _, _, first⟩
      · cases List.mem_singleton.mp member
        exact ⟨_, _, _, second⟩
  | assign _ _ _ | breakLoop | continueLoop | giveBack _ | print _ => cases member

variable (represents : tree.Represents phrases)
include represents

theorem Tree.Reachable.layout (reachable : tree.Reachable id) : ∃ lo hi phrase, StmtLayout tree lo hi id phrase := by
  induction reachable with
  | program member =>
    obtain ⟨before, after, split⟩ := List.append_of_mem member
    unfold Tree.Represents at represents
    rw [split] at represents
    obtain ⟨first, second, phrase, _, _, _, here, _⟩ := represents.split
    exact ⟨first, second, phrase, here⟩
  | inside _ encloses ih =>
    obtain ⟨lo, hi, phrase, layout⟩ := ih
    exact layout_body layout encloses

theorem Tree.Reachable.body_lt (reachable : tree.Reachable parent) (encloses : tree.Encloses parent body) :
    body.index < parent.index := by
  obtain ⟨lo, hi, phrase, layout⟩ := reachable.layout represents
  obtain ⟨kind, node, member⟩ := encloses
  exact (closed_behind_body layout node member).1

theorem Tree.Reachable.parent_eq {other : StmtId} (first : tree.Reachable parent) (second : tree.Reachable other)
    (encloses : tree.Encloses parent body) (encloses' : tree.Encloses other body) : parent = other := by
  obtain ⟨_, _, _, layout⟩ := first.layout represents
  obtain ⟨_, _, _, layout'⟩ := second.layout represents
  obtain ⟨_, node, member⟩ := encloses
  obtain ⟨_, node', member'⟩ := encloses'
  exact parent_unique layout layout' node node' member member'

theorem Tree.Reachable.not_encloses (reachable : tree.Reachable parent) (top : id ∈ tree.body) :
    ¬tree.Encloses parent id := by
  rintro ⟨kind, node, member⟩
  obtain ⟨_, _, _, layout⟩ := reachable.layout represents
  exact not_body_of_layout represents top layout node member

theorem Tree.Exposed.not_inLoop (exposed : tree.Exposed id) : ¬tree.InLoop id := by
  rintro ⟨loop, body, reachable, isLoop, held, below⟩
  have inner := Tree.Reachable.inside reachable held
  -- the way down to the statement and the way up from it go through the same statements
  induction exposed with
  | program member =>
    cases below with
    | self => exact reachable.not_encloses represents member held
    | inside below encloses => exact (inner.descend below).not_encloses represents member encloses
  | inside exposed noLoop encloses ih =>
    cases below with
    | self =>
      cases exposed.reachable.parent_eq represents reachable encloses held
      exact noLoop isLoop
    | inside below encloses' =>
      cases exposed.reachable.parent_eq represents (inner.descend below) encloses encloses'
      exact ih below

/-- A signal gets out of the program when there is one that no loop is around. -/
theorem leaks_iff_not_inLoop :
    (∃ top ∈ tree.body, tree.Leaks top) ↔ ∃ id, tree.Reachable id ∧ tree.IsSignal id ∧ ¬tree.InLoop id := by
  constructor
  · rintro ⟨top, member, leaks⟩
    obtain ⟨id, exposed, isSignal⟩ := leaks.exposed (.program member)
    exact ⟨id, exposed.reachable, isSignal, exposed.not_inLoop represents⟩
  · rintro ⟨id, reachable, isSignal, outside⟩
    rcases reachable.exposed_or_inLoop with exposed | inLoop
    · exact exposed.leaks (.signal isSignal)
    · exact absurd inLoop outside

end

end MatrixScript
