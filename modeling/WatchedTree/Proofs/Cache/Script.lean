import Mathlib.Computability.Language
import WatchedTree.Proofs.Cache.Reconcile

/-!
# Scripts

What is told of one path is a script of the nodes that take each other's place there. A script goes
through whole lives of the path, one after the other, and its end tells whether a node is there, and
which one, but for changes that the comparator does not see.
-/
namespace WatchedTree

namespace Comparator

/-- Holds of the comparators that compare some part of the nodes. -/
def IsStock : Comparator → Prop
  | dataAndType | versionOnly | statAndData => True
  | alwaysSame | neverSame => False

variable {comparator : Comparator}

theorem IsStock.exists_view (stock : comparator.IsStock) :
    ∃ (Value : Type) (view : Node → Value),
      ∀ old new, comparator.isSame old new = true ↔ view old = view new := by
  cases comparator with
  | dataAndType => exact ⟨_, fun node => (node.data, node.isEphemeral), by simp [isSame]⟩
  | versionOnly => exact ⟨_, Node.version, by simp [isSame]⟩
  | statAndData => exact ⟨_, fun node => (node.stat, node.data), by simp [isSame]⟩
  | alwaysSame | neverSame => exact stock.elim

theorem IsStock.equivalence (stock : comparator.IsStock) :
    Equivalence fun old new => comparator.isSame old new = true := by
  obtain ⟨Value, view, same⟩ := stock.exists_view
  simp only [same]
  exact eq_equivalence.comap view

end Comparator

namespace CacheEvent

open scoped Computability

/-! ## The lives of a path -/

def creations : Language CacheEvent := {word | ∃ node, word = [nodeCreated node]}

def changes : Language CacheEvent := {word | ∃ node, word = [nodeChanged node]}

def deletions : Language CacheEvent := {word | ∃ node, word = [nodeDeleted node]}

/-- A node comes, is changed any number of times, and goes; again and again. -/
def lifeCycles : Language CacheEvent := (creations * changes∗ * deletions)∗

/-- What may have been told of a path by the time it has a certain content. -/
def storyOf : Option Node → Language CacheEvent
  | none => lifeCycles
  | some _ => lifeCycles * (creations * changes∗)

variable {isSame : Node → Node → Bool} {told : List CacheEvent} {held : Option Node}

theorem append_mem_kstar {language : Language CacheEvent} {word last : List CacheEvent}
    (earlier : word ∈ language∗) (member : last ∈ language) : word ++ last ∈ language∗ := by
  have closed : language∗ * language ≤ language∗ := kstar_mul_le_kstar
  exact closed (Language.append_mem_mul earlier member)

theorem append_created (story : told ∈ lifeCycles) (node : Node) :
    told ++ [nodeCreated node] ∈ lifeCycles * (creations * changes∗) := by
  have created : [nodeCreated node] ∈ creations := ⟨node, rfl⟩
  have unchanged := Language.nil_mem_kstar changes
  exact Language.append_mem_mul story (Language.append_mem_mul created unchanged)

theorem append_changed (story : told ∈ lifeCycles * (creations * changes∗)) (node : Node) :
    told ++ [nodeChanged node] ∈ lifeCycles * (creations * changes∗) := by
  have changed : [nodeChanged node] ∈ changes := ⟨node, rfl⟩
  obtain ⟨lives, areLives, life, isLife, rfl⟩ := Language.mem_mul.mp story
  obtain ⟨created, isCreated, earlier, areChanges, rfl⟩ := Language.mem_mul.mp isLife
  have more := append_mem_kstar areChanges changed
  rw [List.append_assoc, List.append_assoc]
  exact Language.append_mem_mul areLives (Language.append_mem_mul isCreated more)

theorem append_deleted (story : told ∈ lifeCycles * (creations * changes∗)) (node : Node) :
    told ++ [nodeDeleted node] ∈ lifeCycles := by
  have deleted : [nodeDeleted node] ∈ deletions := ⟨node, rfl⟩
  obtain ⟨lives, areLives, life, isLife, rfl⟩ := Language.mem_mul.mp story
  rw [List.append_assoc]
  exact append_mem_kstar areLives (Language.append_mem_mul isLife deleted)

/-! ## Scripts -/

/-- What is told of a path, from the time when nothing is there, and the content it leads to. -/
inductive Script (isSame : Node → Node → Bool) : List CacheEvent → Option Node → Prop where
  | nothing : Script isSame [] none
  | rewrite {told : List CacheEvent} {old : Option Node} (script : Script isSame told old)
      (new : Option Node) : Script isSame (told ++ between isSame old new) new

theorem Script.story (script : Script isSame told held) : told ∈ storyOf held := by
  induction script with
  | nothing => exact Language.nil_mem_kstar _
  | @rewrite told old _ new inductionHypothesis =>
      cases old with
      | none =>
          cases new with
          | none =>
              rw [between, List.append_nil]
              exact inductionHypothesis
          | some node => exact append_created inductionHypothesis node
      | some old =>
          cases new with
          | none => exact append_deleted inductionHypothesis old
          | some node =>
              rw [between]
              split
              · rw [List.append_nil]
                exact inductionHypothesis
              · exact append_changed inductionHypothesis node

/-- The node that is there after an event, if the event tells. -/
def left? : CacheEvent → Option Node
  | nodeCreated node | nodeChanged node => some node
  | nodeDeleted _ | refreshed _ => none

/-- The end of a script tells whether a node is there. The node it tells of counts as the one that
is there, since what was left untold since then was no change to the comparator. -/
theorem Script.last (script : Script isSame told held)
    (equivalence : Equivalence fun old new => isSame old new = true) :
    Option.Rel (fun sent node => isSame sent node = true) (told.getLast?.bind left?) held := by
  induction script with
  | nothing => exact .none
  | @rewrite told old _ new inductionHypothesis =>
      cases old with
      | none =>
          cases new with
          | none =>
              rw [between, List.append_nil]
              exact inductionHypothesis
          | some node =>
              rw [between, List.getLast?_concat]
              exact .some (equivalence.refl node)
      | some old =>
          cases new with
          | none =>
              rw [between, List.getLast?_concat]
              exact .none
          | some node =>
              rw [between]
              split
              next same =>
                rw [List.append_nil]
                generalize told.getLast?.bind left? = last at inductionHypothesis ⊢
                cases inductionHypothesis with
                | some alike => exact .some (equivalence.trans alike same)
              next =>
                rw [List.getLast?_concat]
                exact .some (equivalence.refl node)

theorem between_self (reflexive : ∀ node, isSame node node = true) (held : Option Node) :
    between isSame held held = [] := by
  cases held with
  | none => rfl
  | some node => rw [between, if_pos (reflexive node)]

end CacheEvent

/-! ## Commits -/

namespace Cache

variable {cache : Cache}

/-- A commit changes and tells nothing, or puts its node in place and tells of that. -/
theorem commit_cases (unbounded : cache.store.IsUnbounded) (now : Moment) (node : Node)
    (epoch : Epoch) :
    (cache.commit now node epoch).1 = none ∧ (cache.commit now node epoch).2 = cache ∨
      (cache.commit now node epoch).1.toList = CacheEvent.between cache.options.comparator.isSame
          (cache.store.peek now node.path) (some node) ∧
        ∀ later key, (cache.commit now node epoch).2.store.peek later key =
          if key = node.path then some node else cache.store.peek later key := by
  unfold commit
  by_cases isClosed : cache.isClosed = true
  · rw [if_pos isClosed]
    exact Or.inl ⟨rfl, rfl⟩
  · rw [if_neg isClosed]
    rcases unbounded.upsert_cases now node epoch with ⟨refused, same⟩ | ⟨outcome, stored⟩
    · left
      simp only [same, Upsert.notice, refused, Bool.false_eq_true, if_false, Option.bind_none,
        and_self]
    · refine Or.inr ⟨?_, stored⟩
      simp only [outcome]
      cases cache.store.peek now node.path with
      | none => rfl
      | some old =>
          simp only [Upsert.notice, Upsert.isStored, if_true, Option.bind_some, eventOf,
            CacheEvent.between]
          split <;> rfl

/-- What a commit tells of a path is what has become of it. -/
theorem about_commit (unbounded : cache.store.IsUnbounded)
    (reflexive : ∀ node, cache.options.comparator.isSame node node = true) (now : Moment)
    (node : Node) (epoch : Epoch) (path : Path) :
    CacheEvent.about (cache.commit now node epoch).1.toList path =
      CacheEvent.between cache.options.comparator.isSame (cache.store.peek now path)
        ((cache.commit now node epoch).2.store.peek now path) := by
  rcases commit_cases unbounded now node epoch with ⟨silent, same⟩ | ⟨told, stored⟩
  · rw [silent, same, CacheEvent.between_self reflexive]
    rfl
  · rw [told, stored, CacheEvent.about_between]
    by_cases isPath : path = node.path
    · simp [isPath]
    · simp [isPath, CacheEvent.between_self reflexive]

end Cache

end WatchedTree
