import IotdbClient.Client.Protocol
import IotdbClient.Library.Search

/-!
# The failure behind a status

A status of code 302 stands for its sub-statuses, which may be such statuses again.  What a tree of
statuses says about the request is said at its leaves, and the failure to report is the first leaf
that failed.
-/

namespace IotdbClient

open Library

namespace TSStatus

def failed (status : TSStatus) : Bool :=
  status.code != successStatus && status.code != redirectionRecommend

mutual

/-- The statuses of another code than 302, left to right. -/
def leaves : TSStatus → List TSStatus
  | .mk code message subStatus redirectNode =>
      if code = multipleError then
        match subStatus with
        | none => []
        | some subs => leavesOf subs
      else [.mk code message subStatus redirectNode]

def leavesOf : List TSStatus → List TSStatus
  | [] => []
  | s :: subs => s.leaves ++ leavesOf subs

end

def firstFailure (status : TSStatus) : Option TSStatus := status.leaves.find? failed

/-- The direct sub-status that a failure is found under first. -/
def failedSub : TSStatus → Option TSStatus
  | .mk code _ subStatus _ =>
      if code = multipleError then (subStatus.getD []).find? fun s ↦ s.firstFailure.isSome else none

/-- The error that names this status. -/
def serverError (status : TSStatus) : Result Unit :=
  fail (.server status.code (status.message.getD ""))

/-! ## Leaves -/

theorem leavesOf_eq (subs : List TSStatus) : leavesOf subs = subs.flatMap leaves := by
  induction subs with
  | nil => rfl
  | cons s subs ih => rw [leavesOf, List.flatMap_cons, ih]

theorem leaves_of_ne {status : TSStatus} (h : status.code ≠ multipleError) :
    status.leaves = [status] := by
  cases status with
  | mk code message subStatus redirectNode =>
      unfold leaves
      exact if_neg h

theorem leaves_multiple (message : Option String) (subStatus : Option (List TSStatus))
    (redirectNode : Option TEndPoint) :
    (mk multipleError message subStatus redirectNode).leaves = (subStatus.getD []).flatMap leaves := by
  unfold leaves
  rw [if_pos rfl]
  cases subStatus with
  | none => rfl
  | some subs => exact leavesOf_eq subs

theorem firstFailure_of_ne {status : TSStatus} (h : status.code ≠ multipleError) :
    status.firstFailure = if status.failed then some status else none := by
  rw [firstFailure, leaves_of_ne h]
  cases hfailed : status.failed <;> simp [hfailed]

theorem firstFailure_multiple (message : Option String) (subStatus : Option (List TSStatus))
    (redirectNode : Option TEndPoint) :
    (mk multipleError message subStatus redirectNode).firstFailure =
      (mk multipleError message subStatus redirectNode).failedSub.bind firstFailure := by
  rw [firstFailure, leaves_multiple, List.find?_flatMap, failedSub, if_pos rfl]
  exact findSome?_eq_bind_find? firstFailure (subStatus.getD [])

mutual

theorem leaves_code : (status : TSStatus) → ∀ leaf ∈ status.leaves, leaf.code ≠ multipleError
  | .mk code message subStatus redirectNode => by
      intro leaf hleaf
      unfold leaves at hleaf
      by_cases hmulti : code = multipleError
      · rw [if_pos hmulti] at hleaf
        cases subStatus with
        | none => cases hleaf
        | some subs => exact leavesOf_code subs leaf hleaf
      · rw [if_neg hmulti] at hleaf
        rw [List.mem_singleton.mp hleaf]
        exact hmulti

theorem leavesOf_code : (subs : List TSStatus) → ∀ leaf ∈ leavesOf subs, leaf.code ≠ multipleError
  | [], _, hleaf => nomatch hleaf
  | s :: subs, leaf, hleaf => by
      rw [leavesOf, List.mem_append] at hleaf
      cases hleaf with
      | inl hfirst => exact leaves_code s leaf hfirst
      | inr hrest => exact leavesOf_code subs leaf hrest

end

theorem firstFailure_code {status leaf : TSStatus} (h : status.firstFailure = some leaf) :
    leaf.code ≠ multipleError := leaves_code status leaf (List.mem_of_find?_eq_some h)

end TSStatus

open TSStatus

/-! ## The check -/

theorem checkStatus_of_ne {status : TSStatus} (h : status.code ≠ multipleError) :
    checkStatus status = if status.failed then status.serverError else pure () := by
  cases status with
  | mk code message subStatus redirectNode =>
      change code ≠ multipleError at h
      unfold checkStatus
      by_cases hok : code = successStatus ∨ code = redirectionRecommend
      · have hfailed : (mk code message subStatus redirectNode).failed = false := by
          simpa [failed, TSStatus.code, or_iff_not_imp_left] using hok
        rw [if_pos hok, hfailed, if_neg Bool.false_ne_true]
      · have hfailed : (mk code message subStatus redirectNode).failed = true := by
          simpa [failed, TSStatus.code] using hok
        rw [if_neg hok, if_neg h, hfailed, if_pos rfl]
        rfl

theorem checkStatus_multiple (message : Option String) (subStatus : Option (List TSStatus))
    (redirectNode : Option TEndPoint) :
    checkStatus (.mk multipleError message subStatus redirectNode) =
      match findFailed (subStatus.getD []) with
      | none => pure ()
      | some s => s.serverError := by
  have hnot : ¬(multipleError = successStatus ∨ multipleError = redirectionRecommend) := by decide
  unfold checkStatus
  rw [if_neg hnot, if_pos rfl]
  cases subStatus <;> rfl

-- by recursion on the tree: a status asks its sub-statuses, and the search asks each of them
mutual

theorem checkStatus_ok_iff : (status : TSStatus) →
    (checkStatus status = .ok () ↔ status.firstFailure = none)
  | .mk code message subStatus redirectNode => by
      by_cases hmulti : code = multipleError
      · subst hmulti
        rw [firstFailure_multiple, failedSub, if_pos rfl, checkStatus_multiple]
        cases subStatus with
        | none => exact iff_of_true rfl rfl
        | some subs =>
            rw [Option.getD_some, findFailed_eq subs]
            cases hfound : subs.find? fun s ↦ s.firstFailure.isSome with
            | none => exact iff_of_true rfl rfl
            | some s =>
                have hsome := List.find?_some hfound
                refine iff_of_false nofun ?_
                intro hnone
                rw [Option.bind_some] at hnone
                simp [hnone] at hsome
      · have hcode : (mk code message subStatus redirectNode).code ≠ multipleError := hmulti
        rw [checkStatus_of_ne hcode, firstFailure_of_ne hcode]
        cases (mk code message subStatus redirectNode).failed with
        | true => exact iff_of_false nofun nofun
        | false => exact iff_of_true rfl rfl

/-- The search for a failed sub-status finds the first one with a failing leaf. -/
theorem findFailed_eq : (subs : List TSStatus) →
    findFailed subs = subs.find? fun s ↦ s.firstFailure.isSome
  | [] => rfl
  | s :: subs => by
      have hfirst := checkStatus_ok_iff s
      have hrest := findFailed_eq subs
      unfold findFailed
      cases hstatus : checkStatus s with
      | ok out =>
          have hnone := hfirst.mp hstatus
          simp [hnone, hrest]
      | error e =>
          have hsome : s.firstFailure.isSome = true := by
            rw [← Option.ne_none_iff_isSome]
            intro hnone
            rw [hfirst.mpr hnone] at hstatus
            cases hstatus
          simp [hsome]

end

theorem findFailed_eq_failedSub (message : Option String) (subStatus : Option (List TSStatus))
    (redirectNode : Option TEndPoint) :
    findFailed (subStatus.getD []) =
      (TSStatus.mk multipleError message subStatus redirectNode).failedSub := by
  rw [failedSub, if_pos rfl, findFailed_eq]

/-- What the check should answer: the failure that the tree reports first, at a leaf. -/
def NamesFailure (status : TSStatus) : Prop :=
  checkStatus status =
    match status.firstFailure with
    | none => pure ()
    | some leaf => leaf.serverError

theorem serverError_code {status status' : TSStatus} (h : status.serverError = status'.serverError) :
    status.code = status'.code := by
  simp only [serverError, fail, Except.error.injEq, Fault.error.injEq, Error.server.injEq] at h
  exact h.1

/-- The sub-status that a failure is found under has one. -/
theorem failedSub_fails {status s : TSStatus} (h : status.failedSub = some s) :
    ∃ leaf, s.firstFailure = some leaf := by
  cases status with
  | mk code message subStatus redirectNode =>
      rw [failedSub] at h
      by_cases hmulti : code = multipleError
      · rw [if_pos hmulti] at h
        have hsome := List.find?_some h
        exact Option.isSome_iff_exists.mp hsome
      · rw [if_neg hmulti] at h
        cases h

/-- The check succeeds if and only if no leaf has failed.  Where one has, the error is that of the first
such leaf, unless the direct sub-status that this leaf is under is itself of code 302. -/
theorem status_error_names_leaf (status : TSStatus) :
    (checkStatus status = .ok () ↔
      ∀ leaf ∈ status.leaves, leaf.code = successStatus ∨ leaf.code = redirectionRecommend) ∧
    (NamesFailure status ↔ ∀ s, status.failedSub = some s → s.code ≠ multipleError) := by
  constructor
  · rw [checkStatus_ok_iff, firstFailure, List.find?_eq_none]
    refine forall₂_congr fun leaf _ ↦ ?_
    simp [failed, or_iff_not_imp_left]
  · unfold NamesFailure
    by_cases hmulti : status.code = multipleError
    · cases status with
      | mk code message subStatus redirectNode =>
          change code = multipleError at hmulti
          subst hmulti
          rw [checkStatus_multiple, findFailed_eq_failedSub message subStatus redirectNode,
            firstFailure_multiple]
          cases hsub : (TSStatus.mk multipleError message subStatus redirectNode).failedSub with
          | none => exact iff_of_true rfl nofun
          | some s =>
              obtain ⟨leaf, hleaf⟩ := failedSub_fails hsub
              rw [Option.bind_some, hleaf]
              constructor
              · intro hsame s' hs'
                cases hs'
                rw [serverError_code hsame]
                exact firstFailure_code hleaf
              · -- a failed sub-status that is a leaf is the first failure itself
                intro hcode
                have hself := firstFailure_of_ne (hcode s rfl)
                rw [hleaf] at hself
                split at hself
                · rw [Option.some.inj hself]
                · cases hself
    · -- the status is a leaf itself
      have hnone : status.failedSub = none := by
        cases status with
        | mk => exact if_neg hmulti
      rw [checkStatus_of_ne hmulti, firstFailure_of_ne hmulti, hnone]
      refine iff_of_true ?_ nofun
      cases status.failed <;> rfl

/-- A failed write inside a partial result inside a partial result. -/
def nestedFailure : TSStatus :=
  .mk 302 none (some [.mk 200 none none none,
    .mk 302 (some "partial") (some [.mk 500 (some "boom") none none]) none]) none

theorem nested_failure_unnamed :
    ¬NamesFailure nestedFailure ∧
      nestedFailure.firstFailure = some (.mk 500 (some "boom") none none) ∧
      checkStatus nestedFailure = fail (.server 302 "partial") := by
  have hleaf : nestedFailure.firstFailure = some (.mk 500 (some "boom") none none) := by rfl
  have hcheck : checkStatus nestedFailure = fail (.server 302 "partial") := by rfl
  refine ⟨?_, hleaf, hcheck⟩
  intro hnamed
  rw [NamesFailure, hcheck, hleaf] at hnamed
  simp [serverError, fail, TSStatus.code] at hnamed

end IotdbClient
