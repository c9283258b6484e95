import OpenCompute.Platform
import OpenCompute.Transition.Run

/-!
# Conditional single-part puts

`put_file` evaluates the condition of a put on a HEAD of its key, and has the
provider enforce no more than that the key is still missing, or that its object
still has the entity tag that was read.  The provider derives the tag from the
content and stamps each upload with its clock.  Other writers of the key act
between any two operations of the call.
-/

namespace OpenCompute
namespace R2

open Transition Option Bool List

inductive R2EtagMatch where
  | wildcard
  | strong (value : String)
  | weak (value : String)

def R2EtagMatch.strongMatches (etag : String) : R2EtagMatch -> Bool
  | .wildcard => true
  | .strong value => value = etag
  | .weak _ => false

def R2EtagMatch.weakMatches (etag : String) : R2EtagMatch -> Bool
  | .wildcard => true
  | .strong value | .weak value => value = etag

structure R2Condition where
  etagMatches : List R2EtagMatch
  etagDoesNotMatch : List R2EtagMatch
  uploadedBefore : Option Millis
  uploadedAfter : Option Millis
  secondsGranularity : Bool
  httpHeaders : Bool

/-- An object, with what `verify_put` compares of it: the size, version, checksums, storage class
and SSE-C key digest. -/
structure R2ObjectMetadata (U : Type) where
  etag : String
  uploaded : Millis
  upload : U

def compareTime (millis : Millis) (seconds : Bool) : Int :=
  if seconds then millis / 1000 else millis

variable {U : Type}

namespace R2Condition

variable (c : R2Condition)

def matchesMissing : Bool :=
  c.etagMatches.isEmpty &&
    (c.httpHeaders && !c.etagMatches.isEmpty || c.uploadedBefore.isNone) &&
    (c.httpHeaders && !c.etagDoesNotMatch.isEmpty || c.uploadedAfter.isNone)

def matchesObject (etag : String) (uploaded : Millis) : Bool :=
  let uploaded := compareTime uploaded c.secondsGranularity
  (c.etagMatches.isEmpty || c.etagMatches.any (R2EtagMatch.strongMatches etag)) &&
    c.etagDoesNotMatch.all (fun item => !item.weakMatches etag) &&
    (c.httpHeaders && !c.etagMatches.isEmpty ||
      c.uploadedBefore.all fun time => uploaded ≤ compareTime time c.secondsGranularity) &&
    (c.httpHeaders && !c.etagDoesNotMatch.isEmpty ||
      c.uploadedAfter.all fun time => uploaded > compareTime time c.secondsGranularity)

def holds : Option (R2ObjectMetadata U) -> Bool
  | none => c.matchesMissing
  | some o => c.matchesObject o.etag o.uploaded

/-- The latest upload time is part of the condition. -/
def boundsUploads : Bool :=
  !(c.httpHeaders && !c.etagMatches.isEmpty) && c.uploadedBefore.isSome

end R2Condition

/-! ## The call -/

inductive PutMode where
  | replace
  | createOnly
  | ifMatch (expected : String)

def PutMode.admits : PutMode -> Option (R2ObjectMetadata U) -> Bool
  | .replace, _ => true
  | .createOnly, current => current.isNone
  | .ifMatch expected, current => current.map R2ObjectMetadata.etag = some expected

def providerUnavailable : PlatformError :=
  ⟨.r2ProviderUnavailable, "R2 provider operation is unavailable"⟩

def integrityError : PlatformError :=
  ⟨.r2ObjectMetadataInvalid, "R2 object metadata failed integrity validation"⟩

abbrev Report (U : Type) := Result (Option (R2ObjectMetadata U))

section Decisions

variable (onlyIf : Option R2Condition) (current : Option (R2ObjectMetadata U))

def putMode : Option PutMode :=
  match onlyIf with
  | none => some .replace
  | some condition =>
    if condition.holds current then
      some (current.elim .createOnly fun metadata => .ifMatch metadata.etag)
    else none

def verifyPut [DecidableEq U] (upload : U) : Report U :=
  match current with
  | none => .error integrityError
  | some metadata => if metadata.upload = upload then .ok (some metadata) else .error integrityError

def finalPrecondition : Report U :=
  match onlyIf with
  | none => .error providerUnavailable
  | some condition => if condition.holds current then .error providerUnavailable else .ok none

end Decisions

def putConditionAttempts : Nat := 3

inductive Phase (U : Type) where
  | checking (attempt : Nat)
  | putting (attempt : Nat) (mode : PutMode)
  | verifying
  | deciding
  | done (report : Report U)

/-- A key at the provider, whose object is not newer than the clock, and the call. -/
structure World (U : Type) where
  object : Option (R2ObjectMetadata U)
  nowMs : Millis
  past : forall o, object = some o -> o.uploaded ≤ nowMs
  phase : Phase U
  /-- The states of the key during the call. -/
  seen : List (Option (R2ObjectMetadata U))
  /-- The states that writes of the call replaced. -/
  replaced : List (Option (R2ObjectMetadata U))

inductive Action (U : Type) where
  | other (delay : Nat) (put : Option (String × U))
  | head
  /-- The provider takes the put; its answer may be lost. -/
  | put (delay : Nat) (etag : String) (lost : Option PlatformError)
  /-- The provider refuses the put, for its mode or for a conflict. -/
  | refuse
  | fail (error : PlatformError)

namespace World

def write (w : World U) (delay : Nat) (put : Option (String × U)) : World U :=
  let object := put.map fun put => ⟨put.1, w.nowMs + delay, put.2⟩
  { w with
    object
    nowMs := w.nowMs + delay
    past := by
      intro o ho
      rcases Option.map_eq_some_iff.mp ho with ⟨_, _, rfl⟩
      exact Int.le_refl _
    seen := object :: w.seen }

def next [DecidableEq U] (onlyIf : Option R2Condition) (upload : U) (w : World U) :
    Action U -> Option (World U)
  | .other delay put => some (w.write delay put)
  | .head =>
    match w.phase with
    | .checking attempt =>
      let mode := putMode onlyIf w.object
      some { w with phase := mode.elim (.done (.ok none)) (.putting attempt) }
    | .verifying => some { w with phase := .done (verifyPut w.object upload) }
    | .deciding => some { w with phase := .done (finalPrecondition onlyIf w.object) }
    | _ => none
  | .put delay etag lost =>
    match w.phase with
    | .putting _ mode =>
      if mode.admits w.object then
        some { w.write delay (some (etag, upload)) with
          phase := lost.elim .verifying fun error => .done (.error error)
          replaced := w.object :: w.replaced }
      else none
    | _ => none
  | .refuse =>
    match w.phase with
    | .putting attempt _ =>
      let again := attempt + 1 < putConditionAttempts
      some { w with phase := if again then .checking (attempt + 1) else .deciding }
    | _ => none
  | .fail error =>
    match w.phase with
    | .done _ => none
    | _ => some { w with phase := .done (.error error) }

structure Begins (w : World U) : Prop where
  phase : w.phase = .checking 0
  seen : w.seen = [w.object]
  replaced : w.replaced = []

end World

/-! ## What a report means -/

section Reports

variable (c : R2Condition)

/-- A success replaced what the condition allows, and a failed precondition was one. -/
def R2Condition.Reported (w : World U) : Prop :=
  match w.phase with
  | .done (.ok (some _)) => exists state, w.replaced = [state] ∧ c.holds state = true
  | .done (.ok none) => w.replaced = [] ∧ exists state, state ∈ w.seen ∧ c.holds state = false
  | _ => True

/-- A write that the mode admits, now or later, replaces what the condition allows. -/
def PutMode.Secures (w : World U) : PutMode -> Prop
  | .replace => False
  | .createOnly => c.matchesMissing = true
  | .ifMatch etag => exists uploaded, c.matchesObject etag uploaded = true ∧ uploaded ≤ w.nowMs ∧
      forall o, w.object = some o -> uploaded ≤ o.uploaded

def R2Condition.Follows (w : World U) : Prop :=
  w.object ∈ w.seen ∧
  match w.phase with
  | .checking _ | .deciding => w.replaced = []
  | .putting _ mode => w.replaced = [] ∧ mode.Secures c w
  | .verifying => exists state, w.replaced = [state] ∧ c.holds state = true
  | .done _ => c.Reported w

variable {c}

theorem compareTime_mono {u v : Millis} (h : u ≤ v) (seconds : Bool) :
    compareTime u seconds ≤ compareTime v seconds := by
  unfold compareTime
  split
  · exact Int.ediv_le_ediv (by decide) h
  · exact h

theorem matchesObject_mono {etag : String} {u v : Millis} (hfree : c.boundsUploads = false)
    (hu : c.matchesObject etag u = true) (hle : u ≤ v) : c.matchesObject etag v = true := by
  have htime := compareTime_mono hle c.secondsGranularity
  simp only [R2Condition.matchesObject, and_eq_true, or_eq_true] at hu ⊢
  rcases hu with ⟨⟨htags, _⟩, hafter⟩
  refine ⟨⟨htags, ?_⟩, hafter.imp_right ?_⟩
  · simp only [R2Condition.boundsUploads, and_eq_false_iff, not_eq_false',
      isSome_eq_false_iff, isNone_iff_eq_none, and_eq_true] at hfree
    refine hfree.imp_right fun hnone => ?_
    rw [hnone]
    rfl
  · cases c.uploadedAfter with
    | none => exact id
    | some time =>
      simp only [all_some, decide_eq_true_eq]
      exact fun h => Int.lt_of_lt_of_le h htime

variable {mode : PutMode} {w v : World U}

theorem PutMode.Secures.write (h : mode.Secures c w) (delay : Nat) (put : Option (String × U)) :
    mode.Secures c (w.write delay put) := by
  cases mode with
  | replace | createOnly => exact h
  | ifMatch etag =>
    rcases h with ⟨uploaded, hmatch, hle, _⟩
    have hlater : uploaded ≤ w.nowMs + delay :=
      Int.le_trans hle (Int.le_add_of_nonneg_right (Int.natCast_nonneg delay))
    refine ⟨uploaded, hmatch, hlater, ?_⟩
    intro o ho
    rcases map_eq_some_iff.mp ho with ⟨_, _, rfl⟩
    exact hlater

section Unbounded

variable (hfree : c.boundsUploads = true ->
  forall etag uploaded, c.matchesObject etag uploaded = false)
include hfree

theorem PutMode.Secures.holds (h : mode.Secures c w) (hadmits : mode.admits w.object = true) :
    c.holds w.object = true := by
  cases mode with
  | replace => exact h.elim
  | createOnly =>
    rw [isNone_iff_eq_none.mp hadmits]
    exact h
  | ifMatch etag =>
    rcases h with ⟨_, hmatch, _, hle⟩
    rcases map_eq_some_iff.mp (of_decide_eq_true hadmits) with ⟨o, ho, rfl⟩
    rw [ho]
    have hunbound : c.boundsUploads = false := by
      refine eq_false_iff.mpr fun hbound => ?_
      rw [hfree hbound] at hmatch
      cases hmatch
    exact matchesObject_mono hunbound hmatch (hle o ho)

theorem follows_next [DecidableEq U] {upload : U} {a : Action U} (hw : c.Follows w)
    (hnext : w.next (some c) upload a = some v) : c.Follows v := by
  rcases w with ⟨object, _, past, phase, seen, replaced⟩
  rcases hw with ⟨hseen, hw⟩
  have hrefused : ¬ c.holds object = true -> replaced = [] ->
      replaced = [] ∧ exists state, state ∈ seen ∧ c.holds state = false :=
    fun hholds hnone => ⟨hnone, object, hseen, eq_false_iff.mpr hholds⟩
  cases a with
  | other delay put =>
    cases hnext
    refine ⟨mem_cons_self, ?_⟩
    cases phase with
    | checking | verifying | deciding => exact hw
    | putting attempt mode => exact hw.imp_right fun h => h.write delay put
    | done report =>
      rcases report with error | _ | metadata
      · trivial
      · exact hw.imp_right fun ⟨state, hstate, hfalse⟩ =>
          ⟨state, mem_cons_of_mem _ hstate, hfalse⟩
      · exact hw
  | head =>
    cases phase with
    | checking attempt =>
      cases hnext
      refine ⟨hseen, ?_⟩
      by_cases hholds : c.holds object = true
      · simp only [putMode, if_pos hholds, elim_some]
        refine ⟨hw, ?_⟩
        cases object with
        | none => exact hholds
        | some o =>
          refine ⟨o.uploaded, hholds, past o rfl, ?_⟩
          rintro _ ⟨⟩
          exact Int.le_refl _
      · simp only [putMode, if_neg hholds, elim_none]
        exact hrefused hholds hw
    | verifying =>
      cases hnext
      refine ⟨hseen, ?_⟩
      simp only [verifyPut]
      split
      · trivial
      · split
        · exact hw
        · trivial
    | deciding =>
      cases hnext
      refine ⟨hseen, ?_⟩
      simp only [finalPrecondition]
      split
      · trivial
      · rename_i hholds
        exact hrefused hholds hw
    | putting | done => cases hnext
  | put delay etag lost =>
    cases phase with
    | putting attempt mode =>
      rcases ite_none_right_eq_some.mp hnext with ⟨hadmits, ⟨⟩⟩
      refine ⟨mem_cons_self, ?_⟩
      cases lost with
      | none => exact ⟨object, congrArg _ hw.left, hw.right.holds hfree hadmits⟩
      | some error => trivial
    | _ => cases hnext
  | refuse =>
    cases phase with
    | putting attempt mode =>
      cases hnext
      refine ⟨hseen, ?_⟩
      by_cases hagain : attempt + 1 < putConditionAttempts
      · simp only [if_pos hagain]
        exact hw.left
      · simp only [if_neg hagain]
        exact hw.left
    | _ => cases hnext
  | fail error =>
    cases phase with
    | done report => cases hnext
    | _ =>
      cases hnext
      exact ⟨hseen, trivial⟩

end Unbounded

theorem R2Condition.Follows.reported (hw : c.Follows w) : c.Reported w := by
  rcases w with ⟨_, _, _, phase, _, _⟩
  cases phase with
  | done report => exact hw.right
  | _ => trivial

theorem replaces_later_upload [DecidableEq U] (upload : U) {etag : String} {uploaded : Millis}
    (hbound : c.boundsUploads = true) (hmatch : c.matchesObject etag uploaded = true) :
    exists w actions v, w.Begins ∧
      Run (World.next (some c) upload) always w actions v ∧ ¬ c.Reported v := by
  simp only [R2Condition.boundsUploads, and_eq_true, not_eq_true',
    isSome_iff_exists] at hbound
  rcases hbound with ⟨happlies, time, htime⟩
  let delay := (time + 1000 - uploaded).toNat
  have hlater : c.matchesObject etag (uploaded + delay) = false := by
    have hdelay : time + 1000 ≤ uploaded + delay :=
      Int.le_add_of_sub_left_le (Int.self_le_toNat (time + 1000 - uploaded))
    have hover : ¬ compareTime (uploaded + delay) c.secondsGranularity ≤
        compareTime time c.secondsGranularity := by
      refine Int.not_le.mpr (Int.lt_of_lt_of_le ?_ (compareTime_mono hdelay c.secondsGranularity))
      unfold compareTime
      split <;> omega
    simp only [R2Condition.matchesObject, happlies, htime, all_some, decide_eq_false hover,
      Bool.or_self, Bool.and_false, Bool.false_and]
  let object : R2ObjectMetadata U := ⟨etag, uploaded, upload⟩
  let w : World U := ⟨some object, uploaded, by rintro _ ⟨⟩; exact Int.le_refl _, .checking 0,
    [some object], []⟩
  have hhead : w.next (some c) upload .head =
      some { w with phase := .putting 0 (.ifMatch etag) } := by
    simp only [World.next, putMode, R2Condition.holds, w, object, hmatch, if_true, elim_some]
  refine ⟨w, [.head, .other delay (some (etag, upload)), .put 0 etag none, .head], _,
    ⟨rfl, rfl, rfl⟩, Run.cons trivial hhead (Run.cons trivial rfl (Run.cons trivial
      (if_pos (decide_eq_true rfl)) (Run.cons trivial rfl (Run.nil _)))), ?_⟩
  simp only [R2Condition.Reported, World.write, map_some, verifyPut, if_pos]
  rintro ⟨_, ⟨⟩, hholds⟩
  exact absurd (hlater.symm.trans hholds) false_ne_true

end Reports

theorem conditional_put_iff [DecidableEq U] (c : R2Condition) (upload : U) :
    (forall w actions v, w.Begins ->
      Run (World.next (some c) upload) always w actions v -> c.Reported v) ↔
    (c.boundsUploads = true -> forall etag uploaded, c.matchesObject etag uploaded = false) := by
  constructor
  · intro hall hbound etag uploaded
    refine Bool.eq_false_iff.mpr fun hmatch => ?_
    rcases replaces_later_upload upload hbound hmatch with ⟨w, actions, v, hbegins, hrun, hnot⟩
    exact hnot (hall w actions v hbegins hrun)
  · intro hfree w actions v hbegins hrun
    refine (Run.invariant (P := c.Follows) ?_ hrun ?_).reported
    · intro u a v hu _ hnext
      exact follows_next hfree hu hnext
    · unfold R2Condition.Follows
      rw [hbegins.phase, hbegins.seen]
      exact ⟨List.mem_cons_self, hbegins.replaced⟩

theorem put_replaces_later_upload : exists w actions v, w.Begins ∧
    Run (World.next (some ⟨[], [], some 100, none, false, false⟩) "content") always
      w actions v ∧
    ¬ R2Condition.Reported ⟨[], [], some 100, none, false, false⟩ v :=
  @replaces_later_upload _ _ _ "content" "digest" 100 rfl (by decide)

end R2
end OpenCompute
