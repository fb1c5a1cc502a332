import Mathlib.Logic.Function.Basic
import Mathlib.Data.List.Basic

/-!
# Boxes that messages are posted to

A box is opened under a key, takes messages in their order, is emptied by its
collector, and is closed with what it still holds. A message without a box is
lost. Nothing that is posted is doubled, reordered or left out: it was
collected, was lost, or is in the box.
-/

namespace Mailbox

universe u v

variable {K : Type u} {M : Type v}

inductive Action (K : Type u) (M : Type v) where
  | opened (k : K)
  | posted (k : K) (m : M)
  | collected (k : K)
  | closed (k : K)

/-- Messages that leave together, with the collector or for good. -/
inductive Leaving (M : Type v) where
  | collected (ms : List M)
  | lost (ms : List M)

def Leaving.messages : Leaving M → List M
  | .collected ms | .lost ms => ms

/-- What a collector has at once, if anything. -/
def Leaving.collection : Leaving M → Option (List M)
  | .collected ms => some ms
  | .lost _ => none

structure Post (K : Type u) (M : Type v) where
  boxes : K → Option (List M)
  left : K → List (Leaving M)

def Post.empty : Post K M := ⟨fun _ => none, fun _ => []⟩

/-- What has been collected from the boxes of a key. -/
def Post.collections (p : Post K M) (k : K) : List (List M) :=
  (p.left k).filterMap Leaving.collection

variable [DecidableEq K]

def Post.leave (p : Post K M) (k : K) (l : Leaving M) (box : Option (List M)) : Post K M where
  boxes := Function.update p.boxes k box
  left := Function.update p.left k (p.left k ++ [l])

def Post.act (p : Post K M) : Action K M → Post K M
  | .opened k =>
    match p.boxes k with
    | some _ => p
    | none => { p with boxes := Function.update p.boxes k (some []) }
  | .posted k m =>
    match p.boxes k with
    | some ms => { p with boxes := Function.update p.boxes k (some (ms ++ [m])) }
    | none => p.leave k (.lost [m]) none
  | .collected k =>
    match p.boxes k with
    | some ms => p.leave k (.collected ms) (some [])
    | none => p
  | .closed k =>
    match p.boxes k with
    | some ms => p.leave k (.lost ms) none
    | none => p

/-- The messages that are posted to a key. -/
def sent (k : K) : Action K M → Option M
  | .posted j m => if j = k then some m else none
  | _ => none

/-- All messages of a key, those that have left and those in its box. -/
def Post.all (p : Post K M) (k : K) : List M :=
  (p.left k).flatMap Leaving.messages ++ (p.boxes k).getD []

theorem all_leave (p : Post K M) (k : K) (l : Leaving M) (box : Option (List M)) (j : K) :
    (p.leave k l box).all j =
      if j = k then (p.left k).flatMap Leaving.messages ++ l.messages ++ box.getD []
      else p.all j := by
  by_cases own : j = k
  · subst own
    simp [Post.all, Post.leave]
  · simp [Post.all, Post.leave, own]

/-- An action adds what it posts. -/
theorem all_act (p : Post K M) (a : Action K M) (k : K) :
    (p.act a).all k = p.all k ++ (sent k a).toList := by
  cases a with
  | opened j =>
    cases box : p.boxes j with
    | some ms => simp [Post.act, box, sent]
    | none =>
      by_cases own : k = j
      · subst own
        simp [Post.act, Post.all, box, sent]
      · simp [Post.act, Post.all, box, sent, own]
  | posted j m =>
    cases box : p.boxes j with
    | some ms =>
      by_cases own : k = j
      · subst own
        simp [Post.act, Post.all, box, sent]
      · simp [Post.act, Post.all, box, sent, own, Ne.symm own]
    | none =>
      rw [Post.act, box]
      simp only [all_leave]
      by_cases own : k = j
      · subst own
        simp [Post.all, box, sent, Leaving.messages]
      · simp [sent, own, Ne.symm own]
  | collected j =>
    cases box : p.boxes j with
    | some ms =>
      rw [Post.act, box]
      simp only [all_leave]
      by_cases own : k = j
      · subst own
        simp [Post.all, box, sent, Leaving.messages]
      · simp [sent, own]
    | none => simp [Post.act, box, sent]
  | closed j =>
    cases box : p.boxes j with
    | some ms =>
      rw [Post.act, box]
      simp only [all_leave]
      by_cases own : k = j
      · subst own
        simp [Post.all, box, sent, Leaving.messages]
      · simp [sent, own]
    | none => simp [Post.act, box, sent]

/-- After any actions the messages of a key are those that were posted to it, in
their order. -/
theorem all_acts (p : Post K M) (as : List (Action K M)) (k : K) :
    (as.foldl Post.act p).all k = p.all k ++ as.filterMap (sent k) := by
  induction as generalizing p with
  | nil => simp
  | cons a as ih =>
    rw [List.foldl_cons, ih, all_act, List.append_assoc, List.filterMap_cons]
    cases sent k a <;> rfl

end Mailbox
