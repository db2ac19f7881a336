import LibCheck.Plain
import Mathlib.Data.List.Forall2
import Mathlib.Data.List.Induction

/-!
# LibCheck.Receiver

What the receiver remembers of a stream of messages, without the fold of
`get_result`: each field of its `RcvMsg` in terms of positions in the stream
(`Remembers`), and what `receive_result_info_fork` makes of it.

A message is processed "while" something holds if it holds of the messages before
it, so that the conditions are about `ms.take i` for a message at position `i`.

* `remembers_received` — the fold of `get_result` remembers exactly this.
* `fork_verdict` — the verdict on a forked test, for every stream, wait status and
  registration.
-/

namespace LibCheck

open Prog

/-! ## positions in a stream -/

namespace Seen

/-- A message as `get_result` sees it. -/
abbrev Msg := CheckMsg CStr

/-- The value of a context message. -/
def ctx? : Msg → Option CkResultCtx
  | .ctx c => some c
  | _ => none

/-- The text of a failure message. -/
def fail? : Msg → Option CStr
  | .fail t => some t
  | _ => none

/-- The value of a duration message. -/
def duration? : Msg → Option Int32
  | .duration d => some d
  | _ => none

/-- The value of the last context message, `CK_CTX_INVALID` if there is none. -/
def announced (ms : List Msg) : CkResultCtx := (ms.filterMap ctx?).getLast?.getD .invalid

/-- The text of the first failure message. -/
def failure (ms : List Msg) : Option CStr := ms.findSome? fail?

/-- The context announced before the first failure message; `CK_CTX_INVALID` also
if there is no failure message. -/
def failContext (ms : List Msg) : CkResultCtx :=
  if (failure ms).isSome then announced (ms.takeWhile fun m => (fail? m).isNone) else .invalid

/-- The value of the last duration message, or else `-1`. -/
def duration (ms : List Msg) : Int32 := (ms.filterMap duration?).getLast?.getD (-1)

/-- Position `i` holds a location that is processed while the context is, or is
not, `CK_CTX_TEST`, and no failure context is known yet. -/
def LocAt (inTest : Bool) (ms : List Msg) (i : Nat) (loc : CStr × Int32) : Prop :=
  ms[i]? = some (.loc loc.1 loc.2) ∧ decide (announced (ms.take i) = .test) = inTest ∧
    failContext (ms.take i) = .invalid

/-- Position `j` holds a context message that is processed while another context
is in force. -/
def SwitchAt (ms : List Msg) (j : Nat) : Prop :=
  (∃ c, ms[j]? = some (.ctx c)) ∧ announced (ms.take j) ≠ .invalid

/-- The last position with a property of this kind. -/
def LastAt (P : Nat → α → Prop) (i : Nat) (a : α) : Prop := P i a ∧ ∀ j b, P j b → j ≤ i

end Seen

open Seen

/-- The two locations of an `RcvMsg` after the messages `ms`. -/
structure RemembersLocs (ms : List Seen.Msg) (r : RcvMsg) : Prop where
  /-- the last location of the test itself -/
  testLoc : ∀ i loc, LastAt (LocAt true ms) i loc → r.testFile = some loc.1 ∧ r.testLine = loc.2
  noTestLoc : (∀ i loc, ¬ LocAt true ms i loc) → r.testFile = none ∧ r.testLine = -1
  /-- the last location outside of the test, if no context message dropped it -/
  fixtureLoc : ∀ i loc, LastAt (LocAt false ms) i loc → (∀ j, i < j → ¬ SwitchAt ms j) →
    r.fixtureFile = some loc.1 ∧ r.fixtureLine = loc.2
  droppedLoc : ∀ i loc, LastAt (LocAt false ms) i loc → (∃ j, i < j ∧ SwitchAt ms j) →
    r.fixtureFile = none ∧ r.fixtureLine = -1
  noFixtureLoc : (∀ i loc, ¬ LocAt false ms i loc) → r.fixtureFile = none ∧ r.fixtureLine = -1

/-- What an `RcvMsg` holds after the messages `ms`, field by field. -/
structure Remembers (ms : List Seen.Msg) (r : RcvMsg) : Prop extends RemembersLocs ms r where
  lastctx : r.lastctx = announced ms
  msg : r.msg = failure ms
  failctx : r.failctx = failContext ms
  duration : r.duration = Seen.duration ms

/-! ## one more message -/

namespace Seen

variable (ms : List Msg) (m : Msg)

theorem announced_concat : announced (ms ++ [m]) = (ctx? m).getD (announced ms) := by
  cases h : ctx? m <;> simp [announced, h]

theorem failure_concat : failure (ms ++ [m]) = (failure ms).or (fail? m) := by
  simp [failure]

theorem duration_concat : duration (ms ++ [m]) = (duration? m).getD (duration ms) := by
  cases h : duration? m <;> simp [duration, h]

/-- Nothing is known of the failure context before there is a failure. -/
theorem takeWhile_of_failure_eq_none (h : failure ms = none) (ms' : List Msg) :
    (ms ++ ms').takeWhile (fun m => (fail? m).isNone) =
      ms ++ ms'.takeWhile fun m => (fail? m).isNone := by
  have hall : ∀ m ∈ ms, fail? m = none := List.findSome?_eq_none_iff.mp h
  exact List.takeWhile_append_of_pos fun m hm => by simp [hall m hm]

theorem takeWhile_of_failure_isSome (h : (failure ms).isSome) (ms' : List Msg) :
    (ms ++ ms').takeWhile (fun m => (fail? m).isNone) =
      ms.takeWhile fun m => (fail? m).isNone := by
  induction ms with
  | nil => simp [failure] at h
  | cons m ms ih =>
      cases hm : fail? m with
      | none => simpa [hm] using ih (by simpa [failure, hm] using h)
      | some t => simp [hm]

theorem failContext_concat : failContext (ms ++ [m]) =
    if (failure ms).isSome then failContext ms
    else if (fail? m).isSome then announced ms
    else .invalid := by
  rw [failContext, failContext, failure_concat]
  cases h : failure ms with
  | some t => simp [takeWhile_of_failure_isSome _ (by simp [h] : (failure ms).isSome)]
  | none => cases hm : fail? m <;> simp [takeWhile_of_failure_eq_none _ h, hm]

variable {ms m}

theorem locAt_lt {b : Bool} {i : Nat} {loc : CStr × Int32} (h : LocAt b ms i loc) : i < ms.length :=
  (List.getElem?_eq_some_iff.mp h.1).1

theorem switchAt_lt {j : Nat} (h : SwitchAt ms j) : j < ms.length := by
  obtain ⟨⟨c, hc⟩, -⟩ := h
  exact (List.getElem?_eq_some_iff.mp hc).1

/-- A position of a longer stream is an old one or the last one. -/
theorem position_cases (ms : List Msg) (m : Msg) (i : Nat) :
    (i < ms.length ∧ (ms ++ [m])[i]? = ms[i]? ∧ (ms ++ [m]).take i = ms.take i) ∨
      (i = ms.length ∧ (ms ++ [m])[i]? = some m ∧ (ms ++ [m]).take i = ms) ∨
      (ms.length < i ∧ (ms ++ [m])[i]? = none) := by
  rcases Nat.lt_trichotomy i ms.length with h | rfl | h
  · exact .inl ⟨h, List.getElem?_append_left h, List.take_append_of_le_length (Nat.le_of_lt h)⟩
  · exact .inr (.inl ⟨rfl, by simp, by simp⟩)
  · exact .inr (.inr ⟨h, by simp; omega⟩)

theorem locAt_concat {b : Bool} {i : Nat} {loc : CStr × Int32} :
    LocAt b (ms ++ [m]) i loc ↔ LocAt b ms i loc ∨ (i = ms.length ∧ m = .loc loc.1 loc.2 ∧
      decide (announced ms = .test) = b ∧ failContext ms = .invalid) := by
  unfold LocAt
  rcases position_cases ms m i with ⟨hi, hget, htake⟩ | ⟨rfl, hget, htake⟩ | ⟨hi, hget⟩
  · simp [hget, htake, Nat.ne_of_lt hi]
  · simp [htake]
  · have hnone : ms[i]? = none := List.getElem?_eq_none (Nat.le_of_lt hi)
    simp [hget, hnone, Nat.ne_of_gt hi]

theorem switchAt_concat {j : Nat} : SwitchAt (ms ++ [m]) j ↔ SwitchAt ms j ∨
    (j = ms.length ∧ (∃ c, m = .ctx c) ∧ announced ms ≠ .invalid) := by
  unfold SwitchAt
  rcases position_cases ms m j with ⟨hj, hget, htake⟩ | ⟨rfl, hget, htake⟩ | ⟨hj, hget⟩
  · simp [hget, htake, Nat.ne_of_lt hj]
  · simp [htake]
  · have hnone : ms[j]? = none := List.getElem?_eq_none (Nat.le_of_lt hj)
    simp [hget, hnone, Nat.ne_of_gt hj]

/-- The last location, when the new message is one. -/
theorem lastAt_concat_self {b : Bool} {i : Nat} {loc loc' : CStr × Int32}
    (hb : decide (announced ms = .test) = b) (hfail : failContext ms = .invalid)
    (h : LastAt (LocAt b (ms ++ [.loc loc'.1 loc'.2])) i loc) : i = ms.length ∧ loc = loc' := by
  have hnew : LocAt b (ms ++ [.loc loc'.1 loc'.2]) ms.length loc' :=
    locAt_concat.mpr (.inr ⟨rfl, rfl, hb, hfail⟩)
  have hle := h.2 _ _ hnew
  rcases locAt_concat.mp h.1 with hold | ⟨hi, hloc, -⟩
  · have := locAt_lt hold
    omega
  · injection hloc with hfile hline
    exact ⟨hi, Prod.ext hfile.symm hline.symm⟩

theorem failContext_concat_of_not_fail (h : fail? m = none) :
    failContext (ms ++ [m]) = failContext ms := by
  rw [failContext_concat, h]
  cases hf : failure ms <;> simp [failContext, hf]

end Seen

variable {ms : List Seen.Msg} {m : Seen.Msg} {r r' : RcvMsg}

/-- Locations that are left alone by a message that neither is a location nor drops
one. -/
theorem RemembersLocs.concat_of_same (h : RemembersLocs ms r)
    (hloc : ∀ loc : CStr × Int32, m = .loc loc.1 loc.2 → failContext ms ≠ .invalid)
    (hctx : (∃ c, m = .ctx c) → announced ms = .invalid)
    (htest : r'.testFile = r.testFile ∧ r'.testLine = r.testLine)
    (hfix : r'.fixtureFile = r.fixtureFile ∧ r'.fixtureLine = r.fixtureLine) :
    RemembersLocs (ms ++ [m]) r' := by
  have hat : ∀ b i loc, LocAt b (ms ++ [m]) i loc ↔ LocAt b ms i loc := fun b i loc =>
    locAt_concat.trans (or_iff_left fun hnew => hloc loc hnew.2.1 hnew.2.2.2)
  have hswitch : ∀ j, SwitchAt (ms ++ [m]) j ↔ SwitchAt ms j := fun j =>
    switchAt_concat.trans (or_iff_left fun hnew => hnew.2.2 (hctx hnew.2.1))
  constructor
  · simpa only [LastAt, hat, htest] using h.testLoc
  · simpa only [hat, htest] using h.noTestLoc
  · simpa only [LastAt, hat, hswitch, hfix] using h.fixtureLoc
  · simpa only [LastAt, hat, hswitch, hfix] using h.droppedLoc
  · simpa only [hat, hfix] using h.noFixtureLoc

/-- A context message that drops the location of the fixture. -/
theorem RemembersLocs.concat_ctx (h : RemembersLocs ms r) (c : CkResultCtx)
    (hctx : announced ms ≠ .invalid)
    (htest : r'.testFile = r.testFile ∧ r'.testLine = r.testLine)
    (hfix : r'.fixtureFile = none ∧ r'.fixtureLine = -1) :
    RemembersLocs (ms ++ [.ctx c]) r' := by
  have hat : ∀ b i loc, LocAt b (ms ++ [.ctx c]) i loc ↔ LocAt b ms i loc := fun b i loc =>
    locAt_concat.trans (or_iff_left fun hnew => nomatch hnew.2.1)
  constructor
  · simpa only [LastAt, hat, htest] using h.testLoc
  · simpa only [hat, htest] using h.noTestLoc
  · intro i loc hlast hnone
    have hswitch : SwitchAt (ms ++ [.ctx c]) ms.length :=
        switchAt_concat.mpr (.inr ⟨rfl, ⟨c, rfl⟩, hctx⟩)
    exact absurd hswitch (hnone _ (locAt_lt ((hat _ _ _).mp hlast.1)))
  · exact fun i loc _ _ => hfix
  · exact fun _ => hfix

/-- A location of the test itself. -/
theorem RemembersLocs.concat_testLoc (h : RemembersLocs ms r) (loc : CStr × Int32)
    (hctx : announced ms = .test) (hfail : failContext ms = .invalid)
    (htest : r'.testFile = some loc.1 ∧ r'.testLine = loc.2)
    (hfix : r'.fixtureFile = r.fixtureFile ∧ r'.fixtureLine = r.fixtureLine) :
    RemembersLocs (ms ++ [.loc loc.1 loc.2]) r' := by
  have hat : ∀ i loc', LocAt false (ms ++ [.loc loc.1 loc.2]) i loc' ↔ LocAt false ms i loc' :=
    fun i loc' => locAt_concat.trans (or_iff_left fun hnew => by simp [hctx] at hnew)
  have hswitch : ∀ j, SwitchAt (ms ++ [.loc loc.1 loc.2]) j ↔ SwitchAt ms j := fun j =>
    switchAt_concat.trans (or_iff_left fun hnew => nomatch hnew.2.1)
  constructor
  · intro i loc' hlast
    obtain ⟨-, rfl⟩ := lastAt_concat_self (by simp [hctx]) hfail hlast
    exact htest
  · intro hnone
    exact absurd (locAt_concat.mpr (.inr ⟨rfl, rfl, by simp [hctx], hfail⟩)) (hnone ms.length loc)
  · simpa only [LastAt, hat, hswitch, hfix] using h.fixtureLoc
  · simpa only [LastAt, hat, hswitch, hfix] using h.droppedLoc
  · simpa only [hat, hfix] using h.noFixtureLoc

/-- A location outside of the test. -/
theorem RemembersLocs.concat_fixtureLoc (h : RemembersLocs ms r) (loc : CStr × Int32)
    (hctx : announced ms ≠ .test) (hfail : failContext ms = .invalid)
    (htest : r'.testFile = r.testFile ∧ r'.testLine = r.testLine)
    (hfix : r'.fixtureFile = some loc.1 ∧ r'.fixtureLine = loc.2) :
    RemembersLocs (ms ++ [.loc loc.1 loc.2]) r' := by
  have hat : ∀ i loc', LocAt true (ms ++ [.loc loc.1 loc.2]) i loc' ↔ LocAt true ms i loc' :=
    fun i loc' => locAt_concat.trans (or_iff_left fun hnew => by simp [hctx] at hnew)
  constructor
  · simpa only [LastAt, hat, htest] using h.testLoc
  · simpa only [hat, htest] using h.noTestLoc
  · intro i loc' hlast _
    obtain ⟨-, rfl⟩ := lastAt_concat_self (by simp [hctx]) hfail hlast
    exact hfix
  · rintro i loc' hlast ⟨j, hj, hswitch⟩
    -- nothing comes after the new location
    obtain ⟨rfl, -⟩ := lastAt_concat_self (by simp [hctx]) hfail hlast
    have := switchAt_lt hswitch
    simp at this
    omega
  · intro hnone
    exact absurd (locAt_concat.mpr (.inr ⟨rfl, rfl, by simp [hctx], hfail⟩)) (hnone ms.length loc)

/-- `get_result` remembers one more message. -/
theorem Remembers.applyMsg (h : Remembers ms r) (m : Seen.Msg) :
    Remembers (ms ++ [m]) (applyMsg r m) := by
  cases m with
  | ctx c =>
      have hlocs : RemembersLocs (ms ++ [.ctx c]) (LibCheck.applyMsg r (.ctx c)) := by
        by_cases hctx : announced ms = .invalid
        · refine h.toRemembersLocs.concat_of_same (by simp) (fun _ => hctx) ?_ ?_ <;>
            simp [LibCheck.applyMsg, rcvmsgUpdateCtx, h.lastctx, hctx]
        · refine h.toRemembersLocs.concat_ctx c hctx ?_ ?_ <;>
            simp [LibCheck.applyMsg, rcvmsgUpdateCtx, h.lastctx, hctx, resetRcvFixture]
      refine ⟨hlocs, ?_, ?_, ?_, ?_⟩
      · simp [LibCheck.applyMsg, rcvmsgUpdateCtx_lastctx, announced_concat, Seen.ctx?]
      · simp [LibCheck.applyMsg, rcvmsgUpdateCtx_msg, failure_concat, fail?, h.msg]
      · rw [failContext_concat_of_not_fail rfl, ← h.failctx]
        exact rcvmsgUpdateCtx_failctx r c
      · rw [duration_concat, ← h.duration]
        simp only [LibCheck.applyMsg, rcvmsgUpdateCtx]
        split <;> rfl
  | loc file line =>
      have hfields : (LibCheck.applyMsg r (.loc file line)).lastctx = r.lastctx ∧
          (LibCheck.applyMsg r (.loc file line)).msg = r.msg ∧
          (LibCheck.applyMsg r (.loc file line)).failctx = r.failctx ∧
          (LibCheck.applyMsg r (.loc file line)).duration = r.duration := by
        simp only [LibCheck.applyMsg, rcvmsgUpdateLoc]
        repeat' split
        all_goals exact ⟨rfl, rfl, rfl, rfl⟩
      have hlocs : RemembersLocs (ms ++ [.loc file line])
          (LibCheck.applyMsg r (.loc file line)) := by
        by_cases hfail : failContext ms = .invalid
        · by_cases hctx : announced ms = .test
          · refine h.toRemembersLocs.concat_testLoc (file, line) hctx hfail ?_ ?_ <;>
              simp [LibCheck.applyMsg, rcvmsgUpdateLoc, h.failctx, h.lastctx, hfail, hctx]
          · refine h.toRemembersLocs.concat_fixtureLoc (file, line) hctx hfail ?_ ?_ <;>
              simp [LibCheck.applyMsg, rcvmsgUpdateLoc, h.failctx, h.lastctx, hfail, hctx]
        · refine h.toRemembersLocs.concat_of_same (fun _ _ => hfail) (by simp) ?_ ?_ <;>
            simp [LibCheck.applyMsg, h.failctx, hfail]
      refine ⟨hlocs, ?_, ?_, ?_, ?_⟩
      · rw [hfields.1, h.lastctx, announced_concat]
        rfl
      · rw [hfields.2.1, h.msg, failure_concat]
        simp [fail?]
      · rw [hfields.2.2.1, h.failctx, failContext_concat_of_not_fail rfl]
      · rw [hfields.2.2.2, h.duration, duration_concat]
        rfl
  | fail t =>
      have hlocs : RemembersLocs (ms ++ [.fail t]) (LibCheck.applyMsg r (.fail t)) := by
        refine h.toRemembersLocs.concat_of_same (by simp) (by simp)
          ?_ ?_ <;>
        · simp only [LibCheck.applyMsg]
          split <;> exact ⟨rfl, rfl⟩
      refine ⟨hlocs, ?_, ?_, ?_, ?_⟩
      · rw [announced_concat, ← h.lastctx, LibCheck.applyMsg]
        split <;> rfl
      · rw [failure_concat, ← h.msg, LibCheck.applyMsg]
        cases hm : r.msg <;> simp [hm, fail?]
      · rw [failContext_concat, ← h.msg, ← h.failctx, ← h.lastctx, LibCheck.applyMsg]
        cases hm : r.msg <;> simp [fail?]
      · rw [duration_concat, ← h.duration, LibCheck.applyMsg]
        split <;> rfl
  | duration d =>
      refine ⟨?_, ?_, ?_, ?_, ?_⟩
      · exact h.toRemembersLocs.concat_of_same (by simp) (by simp)
          ⟨rfl, rfl⟩ ⟨rfl, rfl⟩
      · rw [announced_concat, ← h.lastctx]
        rfl
      · rw [failure_concat, ← h.msg]
        simp [LibCheck.applyMsg, fail?]
      · rw [failContext_concat_of_not_fail rfl, ← h.failctx]
        rfl
      · rw [duration_concat]
        rfl

theorem remembers_rcvmsgCreate : Remembers [] rcvmsgCreate where
  lastctx := rfl
  msg := rfl
  failctx := rfl
  duration := rfl
  testLoc _ _ h := absurd (locAt_lt h.1) (Nat.not_lt_zero _)
  noTestLoc _ := ⟨rfl, rfl⟩
  fixtureLoc _ _ h := absurd (locAt_lt h.1) (Nat.not_lt_zero _)
  droppedLoc _ _ h := absurd (locAt_lt h.1) (Nat.not_lt_zero _)
  noFixtureLoc _ := ⟨rfl, rfl⟩

/-- Whole streams. -/
theorem remembers_foldl (ms : List Seen.Msg) :
    Remembers ms (ms.foldl LibCheck.applyMsg rcvmsgCreate) := by
  induction ms using List.reverseRecOn with
  | nil => exact remembers_rcvmsgCreate
  | append_singleton ms m ih =>
      rw [List.foldl_append]
      exact ih.applyMsg m

/-! ## `get_result` -/

/-- `get_result` on one buffer after the other. -/
def getResults (bufs : List (List UInt8)) : Except Fault RcvMsg :=
  bufs.foldlM (fun r buf => (getResult buf r).map Prod.snd) rcvmsgCreate

/-- The messages that the buffers begin with. -/
def Holding (bufs : List (List UInt8)) (ms : List Seen.Msg) : Prop :=
  List.Forall₂ (fun buf m => ∃ m' n, upack buf = .ok (m', n) ∧ m = m'.map CStr.ofBuf) bufs ms

theorem foldlM_getResult {bufs : List (List UInt8)} {ms : List Seen.Msg} (h : Holding bufs ms)
    (r : RcvMsg) : bufs.foldlM (fun r buf => (getResult buf r).map Prod.snd) r =
      .ok (ms.foldl LibCheck.applyMsg r) := by
  induction h generalizing r with
  | nil => rfl
  | cons hm _ ih =>
      obtain ⟨m', n, hup, rfl⟩ := hm
      rw [List.foldlM_cons, getResult, hup]
      exact ih _

/-- **What the receiver remembers**: whatever messages arrive, in whatever order. -/
theorem getResults_remembers {bufs : List (List UInt8)} {ms : List Seen.Msg}
    (h : Holding bufs ms) : ∃ r, getResults bufs = .ok r ∧ Remembers ms r :=
  ⟨_, foldlM_getResult h rcvmsgCreate, remembers_foldl ms⟩

/-- A location and a failure come before the first context, and another failure in the test. -/
theorem getResults_remembers_late_setup :
    ∃ r, getResults [encode (.loc (some (.lit "a.c")) 3), encode (.fail (some (.lit "x"))),
        encode (.ctx .setup), encode (.ctx .test), encode (.fail none)] = .ok r ∧
      Remembers [.loc (.lit "a.c") 3, .fail (.lit "x"), .ctx .setup, .ctx .test, .fail .empty] r :=
  getResults_remembers (.cons ⟨_, _, rfl, rfl⟩ (.cons ⟨_, _, rfl, rfl⟩ (.cons ⟨_, _, rfl, rfl⟩
    (.cons ⟨_, _, rfl, rfl⟩ (.cons ⟨_, _, rfl, rfl⟩ .nil)))))

/-! ## verdicts on forked tests -/

/-- The process did not end as it should: by another signal than the expected one, or
with another status than zero. -/
def Abnormal : WaitStatus → Int → Prop
  | .signaled sig, e => (sig.1 : Int) ≠ e
  | .exited c, _ => c ≠ 0

/-- The rules for the result of a forked test: of the stream `ms`, of the wait status,
of the expected signal `e` and the allowed exit value `v`, and of the alarm. -/
structure ForkVerdict (ms : List SendMsg) (status : WaitStatus) (e v : Int) (alarm : Bool)
    (tr : TestResult) : Prop where
  msg : tr.msg ≠ none
  valid : tr.ctx ≠ .invalid
  signaled : ∀ sig, status = .signaled sig →
    tr.rtype = if e = sig.1 ∧ alarm = false then .pass else .error
  exited : ∀ c, status = .exited c → e = 0 →
    tr.rtype = if (c.toNat : Int) % 256 = v % 256 then .pass
      else if failure (ms.map SendMsg.seen) ≠ none then .failure
      else .error
  unsignaled : ∀ c, status = .exited c → e ≠ 0 → tr.rtype = .failure
  ctx_of_error : failure (ms.map SendMsg.seen) ≠ none ∨ Abnormal status e →
    tr.ctx = if failContext (ms.map SendMsg.seen) ≠ .invalid then failContext (ms.map SendMsg.seen)
      else announced (ms.map SendMsg.seen)
  ctx_of_none : failure (ms.map SendMsg.seen) = none → ¬ Abnormal status e →
    tr.ctx = if announced (ms.map SendMsg.seen) = .setup then .setup else .test
  loc : (tr.file, tr.line) =
    if tr.ctx = .test then
      ((received rcvmsgCreate ms).testFile, (received rcvmsgCreate ms).testLine)
    else ((received rcvmsgCreate ms).fixtureFile, (received rcvmsgCreate ms).fixtureLine)

theorem remembers_received (ms : List SendMsg) :
    Remembers (ms.map SendMsg.seen) (received rcvmsgCreate ms) := by
  have h := remembers_foldl (ms.map SendMsg.seen)
  rwa [List.foldl_map] at h

theorem waserror_iff {status : WaitStatus} {e : Int} : waserror status e ↔ Abnormal status e := by
  cases status <;> simp [waserror, Abnormal]

/-- An exit status and a registered value agree if they do modulo 256. -/
theorem exitStatus_eq_iff (c : UInt8) (v : Int) :
    c.toInt8 = Int8.ofInt (v % 256) ↔ (c.toNat : Int) % 256 = v % 256 := by
  have hc : c.toInt8.toInt = (c.toNat : Int).bmod 256 := by
    show c.toBitVec.toInt = _
    rw [BitVec.toInt_eq_toNat_bmod]
    rfl
  have hlt : c.toNat < 256 := c.toNat_lt
  have hsize : Int8.size = 256 := rfl
  rw [← Int8.toInt_inj, Int8.toInt_ofInt, hc, hsize, Int.bmod_def, Int.bmod_def]
  split <;> split <;> omega

/-- The place that `construct_test_result` chooses is that of the context. -/
theorem constructTestResult_loc (r : RcvMsg) (w : Bool) :
    ((constructTestResult r w).file, (constructTestResult r w).line) =
      if (constructTestResult r w).ctx = .test then (r.testFile, r.testLine)
      else (r.fixtureFile, r.fixtureLine) := by
  have hset : ∀ (tr : TestResult) (c : CkResultCtx), tr.ctx = c →
      ((trSetLocByCtx tr c r).file, (trSetLocByCtx tr c r).line) =
        if (trSetLocByCtx tr c r).ctx = .test then (r.testFile, r.testLine)
        else (r.fixtureFile, r.fixtureLine) := by
    rintro tr c rfl
    unfold trSetLocByCtx
    by_cases hctx : tr.ctx = .test <;> simp [hctx]
  unfold constructTestResult
  split
  · exact hset _ _ rfl
  · split
    · exact hset _ _ rfl
    · exact hset _ _ rfl

/-- The context of the result. -/
theorem constructTestResult_ctx (r : RcvMsg) (w : Bool) :
    (constructTestResult r w).ctx =
      if r.msg ≠ none ∨ w then if r.failctx ≠ .invalid then r.failctx else r.lastctx
      else if r.lastctx = .setup then .setup else .test := by
  have hset : ∀ (tr : TestResult) (c : CkResultCtx), (trSetLocByCtx tr c r).ctx = tr.ctx := by
    intro tr c
    unfold trSetLocByCtx
    split <;> rfl
  unfold constructTestResult
  split
  · exact hset _ _
  · split
    · exact hset _ _
    · exact hset _ _

/-- The message of the result is the one that was received. -/
theorem constructTestResult_msg (r : RcvMsg) (w : Bool) :
    (constructTestResult r w).msg = r.msg := by
  have hset : ∀ (tr : TestResult) (c : CkResultCtx), (trSetLocByCtx tr c r).msg = tr.msg := by
    intro tr c
    unfold trSetLocByCtx
    split <;> rfl
  unfold constructTestResult
  split
  · exact hset _ _
  · rename_i hnone
    have hmsg : r.msg = none := by simpa using (not_or.mp hnone).1
    split
    · rw [hset, hmsg]
    · rw [hset, hmsg]

/-- `set_fork_info` decides about the type and the message. -/
theorem setForkInfo_frame (cfg : Config) (alarm : Bool) (tr : TestResult) (status : WaitStatus)
    (e : Int) (v : Int8) :
    (setForkInfo cfg alarm tr status e v).ctx = tr.ctx ∧
      (setForkInfo cfg alarm tr status e v).file = tr.file ∧
      (setForkInfo cfg alarm tr status e v).line = tr.line := by
  simp only [setForkInfo]
  repeat' split
  all_goals exact ⟨rfl, rfl, rfl⟩

theorem setForkInfo_msg (cfg : Config) (alarm : Bool) (tr : TestResult) (status : WaitStatus)
    (e : Int) (v : Int8) : (setForkInfo cfg alarm tr status e v).msg ≠ none := by
  simp only [setForkInfo]
  repeat' split
  all_goals simp_all

theorem setForkInfo_signaled (cfg : Config) (alarm : Bool) (tr : TestResult) (sig : Signal)
    (e : Int) (v : Int8) : (setForkInfo cfg alarm tr (.signaled sig) e v).rtype =
      if e = sig.1 ∧ alarm = false then .pass else .error := by
  by_cases he : e = sig.1
  · cases alarm <;> simp [setForkInfo, he]
  · simp only [setForkInfo, he, if_false, false_and]
    split <;> rfl

theorem setForkInfo_exited (cfg : Config) (alarm : Bool) (tr : TestResult) (c : UInt8)
    (e : Int) (v : Int8) : (setForkInfo cfg alarm tr (.exited c) e v).rtype =
      if e = 0 then
        if c.toInt8 = v then .pass else if tr.msg ≠ none then .failure else .error
      else .failure := by
  unfold setForkInfo
  by_cases he : e = 0 <;> by_cases hc : c.toInt8 = v <;> cases tr.msg <;> simp [he, hc]

/-- **Verdicts in `CK_FORK` mode are total and follow the rules**: whatever was sent,
however the process ended, and whatever was registered. -/
theorem fork_verdict {ν : Type} {x : Ctx} {s : St CkList UInt8 ν} {f : Pipe UInt8}
    {ms : List SendMsg} (hpipe : s.proc.getPipe = some f) (hcontent : f.content = encodeAll ms)
    (hlim : Limited x.cfg.maxMsg ms) (hnonneg : ∀ m ∈ ms, m.NonNeg)
    (hctx : announced (ms.map SendMsg.seen) ≠ .invalid) (tcname : CStr) (ttest : TTest ν)
    (e v start stop : Int) (iter : Int) (status : WaitStatus) :
    let tfun := tcaseAddTest ttest e v start stop
    ∃ tr s', receiveResultInfoFork x tcname tfun.ttest.name iter status tfun.signal
        tfun.allowedExitValue s = .ok tr s' ∧
      ForkVerdict ms status e v s.proc.alarmReceived tr := by
  intro tfun
  have hrem := remembers_received ms
  generalize hr : received rcvmsgCreate ms = r at hrem
  have hpunpack : rcvOutcome (Wire.punpack x.cfg f.content) = .ok r := by
    have hrec : Receivable x.cfg.sz x.cfg.maxMsg ms :=
      ⟨hnonneg, (Nat.min_le_left _ _).trans x.cfg.window_le⟩
    show rcvOutcome (punpack x.cfg.sz x.cfg.maxMsg x.cfg.mallocd f.content) = _
    rw [hcontent, punpack_of_receivable _ hlim hrec, hr, rcvmsgOrNull,
      if_neg (by rwa [hrem.lastctx])]
    rfl
  have hreceive : receiveTestResult x (waserror status e) s =
      .ok (constructTestResult r (waserror status e)) (s.onProc Proc.renew) := by
    rw [receiveTestResult_apply, hpipe, Option.map_some, hpunpack]
  have halarm : (s.onProc Proc.renew).proc.alarmReceived = s.proc.alarmReceived :=
    Proc.alarmReceived_renew s.proc
  refine ⟨_, _, receiveResultInfoFork_of_ok hreceive tcname tfun.ttest.name iter _, ?_⟩
  rw [halarm]
  generalize htr : ({ constructTestResult r (waserror status e) with
    tcname := some tcname, tname := some tfun.ttest.name, iter := iter } : TestResult) = tr
  have hframe := setForkInfo_frame x.cfg s.proc.alarmReceived tr status e tfun.allowedExitValue
  have hctx' : tr.ctx = (constructTestResult r (waserror status e)).ctx := by rw [← htr]
  have hmsg : tr.msg = failure (ms.map SendMsg.seen) := by
    rw [← htr, ← hrem.msg]
    exact constructTestResult_msg r _
  have hfile : (tr.file, tr.line) = if tr.ctx = .test then (r.testFile, r.testLine)
      else (r.fixtureFile, r.fixtureLine) := by
    rw [← htr]
    exact constructTestResult_loc r _
  rw [constructTestResult_ctx, hrem.msg, hrem.failctx, hrem.lastctx] at hctx'
  constructor
  · exact setForkInfo_msg _ _ _ _ _ _
  · rw [hframe.1, hctx']
    split
    · split
      · assumption
      · exact hctx
    · split <;> decide
  · rintro sig rfl
    exact setForkInfo_signaled _ _ _ _ _ _
  · rintro c rfl he
    rw [setForkInfo_exited, if_pos he, hmsg]
    simp only [tfun, tcaseAddTest, exitStatus_eq_iff]
  · rintro c rfl he
    rw [setForkInfo_exited]
    exact if_neg he
  · intro herr
    rw [hframe.1, hctx', if_pos (herr.imp_right waserror_iff.mpr)]
  · intro hnone hnormal
    rw [hframe.1, hctx', if_neg (not_or.mpr ⟨not_not.mpr hnone, fun hw =>
      hnormal (waserror_iff.mp hw)⟩)]
  · rw [hframe.1, hframe.2.1, hframe.2.2, hfile, hr]

/-- A process whose message file holds the given stream. -/
def Sample.reading (ms : List SendMsg) : St CkList UInt8 NestedRun where
  proc := { Sample.proc with sendFile1 := some ⟨0, encodeAll ms⟩ }
  heap := { lists := fun _ => Lists.empty, suiteName := fun _ => .empty, tcName := fun _ => .empty }
  sr := srunnerCreate
  now := ⟨0, 0⟩

/-- A test that exits with 3 where 259, which is 3 modulo 256, is the allowed value. -/
theorem fork_verdict_exit :
    let ms : List SendMsg := [.ctx .setup, .ctx .test, .loc (some (.lit "t.c")) 7]
    ∃ tr s', receiveResultInfoFork Sample.ctx (.lit "tc") (.lit "t") 0 (.exited 3) 0
        (Int8.ofInt (259 % 256)) (Sample.reading ms) = .ok tr s' ∧
      ForkVerdict ms (.exited 3) 0 259 false tr :=
  fork_verdict (f := ⟨0, encodeAll [.ctx .setup, .ctx .test, .loc (some (.lit "t.c")) 7]⟩) rfl rfl
    (by decide) (by decide) (by decide) (.lit "tc")
    ⟨.lit "t", fun _ _ => [], Sample.loc⟩ 0 259 0 1 0 (.exited 3)

end LibCheck
