import Mathlib.Data.List.Chain
import TagTree.Proofs.Walk

/-!
# Walks step by step

A walk is what repeating one step gives until the step leads nowhere. The children of a parent are
such a walk, and so are the children with one tag, where a step is a search. Searching again and
again finds just those of the children that have the tag.
-/

namespace TagTree

/-- The records that a step leads to, one after the other, from a beginning until it leads
nowhere. -/
inductive Follows (next : Nat → Option Nat) : Option Nat → List Nat → Prop where
  | done : Follows next none []
  | step {id : Nat} {rest : List Nat} (behind : Follows next (next id) rest) :
      Follows next (some id) (id :: rest)

namespace Follows

variable {next : Nat → Option Nat} {start : Option Nat} {ids : List Nat}

theorem head?_eq (follows : Follows next start ids) : ids.head? = start := by
  cases follows with
  | done => rfl
  | step => rfl

/-- There is one walk from each beginning. -/
theorem unique {others : List Nat} (follows : Follows next start ids)
    (again : Follows next start others) : ids = others := by
  induction follows generalizing others with
  | done =>
      cases again
      rfl
  | step behind ih =>
      cases again with
      | step behindAgain => rw [ih behindAgain]

/-- A walk that is cut before one of its records goes on from there as a walk. -/
theorem of_append {before after : List Nat} {id : Nat}
    (follows : Follows next start (before ++ id :: after)) : Follows next (next id) after := by
  induction before generalizing start with
  | nil =>
      cases follows with
      | step behind => exact behind
  | cons first rest ih =>
      cases follows with
      | step behind => exact ih behind

/-- Each record of a walk is the step from the one before. -/
theorem isChain (follows : Follows next start ids) :
    ids.IsChain fun id following => next id = some following := by
  induction follows with
  | done => exact .nil
  | @step id rest behind ih =>
      cases rest with
      | nil => exact .singleton id
      | cons following rest =>
          apply List.IsChain.cons_cons
          · exact behind.head?_eq.symm
          · exact ih

/-- What holds at the beginning and is kept by every step holds on the whole walk. -/
theorem forall_mem {motive : Nat → Prop} (follows : Follows next start ids)
    (first : ∀ id ∈ start, motive id)
    (kept : ∀ id following, motive id → next id = some following → motive following) :
    ∀ id ∈ ids, motive id := by
  induction follows with
  | done =>
      intro id member
      cases member
  | step behind ih =>
      have here := first _ rfl
      intro id member
      rcases List.mem_cons.mp member with rfl | later
      · exact here
      · apply ih
        · intro following isNext
          exact kept _ following here isNext
        · exact later

end Follows

namespace Image

variable {image : Image} {parent id : Nat} {tag : Tag}

theorem follows_siblingsFrom (image : Image) (parent id : Nat) :
    Follows (image.nextChild parent) (some id) (image.siblingsFrom parent id) := by
  fun_induction image.siblingsFrom parent id with
  | case1 id stop =>
      apply Follows.step
      rw [stop]
      exact .done
  | case2 id next step ih =>
      apply Follows.step
      rw [step]
      exact ih

/-- The children are got by going from one to the next. -/
theorem follows_children (image : Image) (parent : Nat) :
    Follows (image.nextChild parent) (image.firstChild parent) (image.children parent) := by
  rw [children]
  cases image.firstChild parent with
  | none => exact .done
  | some id => exact follows_siblingsFrom image parent id

theorem follows_matchesFrom (image : Image) (parent id : Nat) :
    Follows (image.findNext parent) (some id) (image.matchesFrom parent id) := by
  fun_induction image.matchesFrom parent id with
  | case1 id stop =>
      apply Follows.step
      rw [stop]
      exact .done
  | case2 id next step ih =>
      apply Follows.step
      rw [step]
      exact ih

/-- The children with a tag are got by searching on from each. -/
theorem follows_childrenTagged (image : Image) (parent : Nat) (tag : Tag) :
    Follows (image.findNext parent) (image.findFirst parent tag)
      (image.childrenTagged parent tag) := by
  rw [childrenTagged]
  cases image.findFirst parent tag with
  | none => exact .done
  | some id => exact follows_matchesFrom image parent id

/-! ## Children with a tag -/

/-- The null tag has no kind, so no walk goes on behind it. -/
theorem nextChild_of_null (isNull : image.tagAt id = .null) : image.nextChild parent id = none := by
  have unreadable : image.sizeOf id = 0 := by
    rw [sizeOf, kindAt?, isNull]
    rfl
  apply if_neg
  intro both
  exact both.1 unreadable

/-- Nothing with the tag is passed over on the way to what a search finds. -/
theorem filter_siblingsFrom (image : Image) (parent : Nat) (tag : Tag) (id : Nat) :
    (image.siblingsFrom parent id).filter (fun sibling => image.tagAt sibling = tag) =
      ((image.findFrom parent tag id).map fun found =>
        (image.siblingsFrom parent found).filter fun sibling => image.tagAt sibling = tag).getD
          [] := by
  fun_induction image.findFrom parent tag id with
  | case1 id same => rfl
  | case2 id other stop =>
      rw [siblingsFrom_of_none stop]
      simp [other]
  | case3 id other next step ih =>
      rw [siblingsFrom_of_some step, List.filter_cons_of_neg (by simpa using other), ih]

theorem matchesFrom_eq_filter (isMatch : image.tagAt id = tag) :
    image.matchesFrom parent id =
      (image.siblingsFrom parent id).filter fun sibling => image.tagAt sibling = tag := by
  fun_induction image.matchesFrom parent id with
  | case1 id stop =>
      rw [siblingsFrom_eq, List.filter_cons_of_pos (by simpa using isMatch)]
      congr 1
      rw [findNext] at stop
      split at stop
      · next isNull =>
          rw [nextChild_of_null isNull]
          rfl
      · cases step : image.nextChild parent id with
        | none => rfl
        | some next =>
            rw [step, isMatch] at stop
            change image.findFrom parent tag next = none at stop
            rw [Option.map_some, Option.getD_some, filter_siblingsFrom, stop]
            rfl
  | case2 id next step ih =>
      rw [findNext, Option.ite_none_left_eq_some, isMatch, Option.bind_eq_some_iff] at step
      obtain ⟨-, behind, isNext, found⟩ := step
      have sameTag : image.tagAt next = tag := by
        rw [findFrom_eq_find?] at found
        simpa using List.find?_some found
      rw [siblingsFrom_of_some isNext, List.filter_cons_of_pos (by simpa using isMatch),
        filter_siblingsFrom, found, ih sameTag]
      rfl

/-- Searching again and again finds the children that have the tag, each once and in order. -/
theorem childrenTagged_eq_filter (image : Image) (parent : Nat) (tag : Tag) :
    image.childrenTagged parent tag =
      (image.children parent).filter fun child => image.tagAt child = tag := by
  cases isFirst : image.firstChild parent with
  | none =>
      rw [childrenTagged, findFirst, children, isFirst]
      rfl
  | some id =>
      have walk : image.children parent = image.siblingsFrom parent id := by
        rw [children, isFirst]
      have search : image.findFirst parent tag = image.findFrom parent tag id := by
        rw [findFirst, isFirst, Option.bind_some]
      rw [childrenTagged, search, walk, filter_siblingsFrom]
      cases found : image.findFrom parent tag id with
      | none => rfl
      | some first =>
          have sameTag : image.tagAt first = tag := by
            rw [findFrom_eq_find?] at found
            simpa using List.find?_some found
          exact matchesFrom_eq_filter sameTag

end Image

end TagTree
