import LibCheck.Run

/-!
# LibCheck.Plain

Plain user functions: a finite sequence of mark points, optionally ended by a
failing assertion.  What such a function sends, and what the receiver makes of
it.

* `messages`, `failureOf` — the messages of a plain function and the failure
  it ends in.
* `sentBy`, `firstFailure` — those of a list of fixtures that are called one
  after the other until one fails.
* `RcvMsg.Clean`, `RcvMsg.Failed` — what the receiver knows before and after
  the first failure.  The slots of the `RcvMsg` keep changing after the
  failure of a test (`RcvMsg.Failed.received_test`), but not those that the
  report is made of.
-/

namespace LibCheck

variable {ν : Type}

/-! ## plain functions -/

/-- A finite sequence of mark points, optionally ended by a failing
assertion. -/
inductive Plain : List (Act ν) → Prop where
  | nil : Plain []
  | markPoint (loc : SrcLoc) {acts : List (Act ν)} (h : Plain acts) :
      Plain (.markPoint loc :: acts)
  | assertFailed (loc : SrcLoc) (expr : CStr) (msg : Option CStr) :
      Plain [.assertFailed loc expr msg]

/-- A failing assertion: its place and its text. -/
structure Failure where
  loc : SrcLoc
  text : CStr
deriving DecidableEq, Repr

/-- The result reports the failure, in the context `c`. -/
def Failure.Reported (c : CkResultCtx) (f : Failure) (tr : TestResult) : Prop :=
  tr.rtype = .failure ∧ tr.ctx = c ∧ tr.msg = some f.text ∧ tr.file = some f.loc.file ∧
    tr.line = f.loc.line

/-- The failure a function ends in. -/
def failureOf (cfg : Config) : List (Act ν) → Option Failure
  | .markPoint _ :: acts => failureOf cfg acts
  | .assertFailed loc expr msg :: _ => some ⟨loc, failureText cfg expr msg⟩
  | _ => none

/-- The message of a place. -/
def SrcLoc.msg (loc : SrcLoc) : SendMsg := .loc (some loc.file) loc.line

/-- The messages of a function. -/
def messages (cfg : Config) : List (Act ν) → List SendMsg
  | .markPoint loc :: acts => loc.msg :: messages cfg acts
  | .assertFailed loc expr msg :: _ => [loc.msg, .fail (some (failureText cfg expr msg))]
  | _ => []

/-- The last place a function has marked, or the given one. -/
def lastLoc : SrcLoc → List (Act ν) → SrcLoc
  | _, .markPoint loc :: acts => lastLoc loc acts
  | loc, _ => loc

/-- What a list of fixtures sends, called one after the other until one fails,
each with a header before it. -/
def sentBy (cfg : Config) (now : When) (hdr : List SendMsg) : List (Fixture ν) → List SendMsg
  | [] => []
  | f :: fs => hdr ++ messages cfg (f.sfun.acts now) ++
      if (failureOf cfg (f.sfun.acts now)).isSome then [] else sentBy cfg now hdr fs

/-- The first failure of a list of fixtures. -/
def firstFailure (cfg : Config) (now : When) (fs : List (Fixture ν)) : Option Failure :=
  fs.findSome? fun f => failureOf cfg (f.sfun.acts now)

/-- A function sends no context. -/
theorem ctx_notMem_messages (cfg : Config) (acts : List (Act ν)) (c : CkResultCtx) :
    .ctx c ∉ messages cfg acts := by
  induction acts with
  | nil => exact List.not_mem_nil
  | cons act acts ih => cases act <;> simp [messages, SrcLoc.msg, ih]

theorem ne_invalid_of_mem_sentBy {cfg : Config} {now : When} {c : CkResultCtx}
    (hc : c ≠ .invalid) {fs : List (Fixture ν)} :
    ∀ m ∈ sentBy cfg now [.ctx c] fs, m ≠ .ctx .invalid := by
  induction fs with
  | nil => exact fun _ hm => absurd hm List.not_mem_nil
  | cons f fs ih =>
      intro m hm
      rw [sentBy, List.mem_append, List.mem_append, List.mem_singleton] at hm
      rcases hm with (hm | hm) | hm
      · rw [hm]
        exact fun he => hc (CheckMsg.ctx.inj he)
      · rintro rfl
        exact ctx_notMem_messages _ _ _ hm
      · split at hm
        · exact absurd hm List.not_mem_nil
        · exact ih m hm

theorem nonNeg_ctx (c : CkResultCtx) : (CheckMsg.ctx c : SendMsg).NonNeg := trivial

theorem nonNeg_messages (cfg : Config) (acts : List (Act ν)) :
    ∀ m ∈ messages cfg acts, m.NonNeg := by
  induction acts with
  | nil => exact fun _ hm => absurd hm List.not_mem_nil
  | cons act acts ih =>
      cases act with
      | markPoint loc => exact List.forall_mem_cons.mpr ⟨loc.line_nonneg, ih⟩
      | assertFailed loc expr msg =>
          exact List.forall_mem_cons.mpr ⟨loc.line_nonneg, List.forall_mem_singleton.mpr trivial⟩
      | exit status => exact fun _ hm => absurd hm List.not_mem_nil
      | raise sig => exact fun _ hm => absurd hm List.not_mem_nil
      | call c => exact fun _ hm => absurd hm List.not_mem_nil

theorem nonNeg_sentBy (cfg : Config) (now : When) {hdr : List SendMsg}
    (hhdr : ∀ m ∈ hdr, m.NonNeg) (fs : List (Fixture ν)) :
    ∀ m ∈ sentBy cfg now hdr fs, m.NonNeg := by
  induction fs with
  | nil => exact fun _ hm => absurd hm List.not_mem_nil
  | cons f fs ih =>
      intro m hm
      rw [sentBy, List.mem_append, List.mem_append] at hm
      rcases hm with (hm | hm) | hm
      · exact hhdr m hm
      · exact nonNeg_messages _ _ m hm
      · split at hm
        · exact absurd hm List.not_mem_nil
        · exact ih m hm

/-! ## what the receiver makes of it -/

theorem received_append (r : RcvMsg) (ms ms' : List SendMsg) :
    received r (ms ++ ms') = received (received r ms) ms' := List.foldl_append

theorem received_nil (r : RcvMsg) : received r [] = r := rfl

theorem received_cons (r : RcvMsg) (m : SendMsg) (ms : List SendMsg) :
    received r (m :: ms) = received (applyMsg r (SendMsg.seen m)) ms := rfl

section

variable (r : RcvMsg) (c : CkResultCtx) (file : CStr) (line : Int32)

@[simp] theorem rcvmsgUpdateCtx_lastctx : (rcvmsgUpdateCtx r c).lastctx = c := rfl

@[simp] theorem rcvmsgUpdateCtx_msg : (rcvmsgUpdateCtx r c).msg = r.msg := by
  simp only [rcvmsgUpdateCtx]
  split <;> rfl

@[simp] theorem rcvmsgUpdateCtx_failctx : (rcvmsgUpdateCtx r c).failctx = r.failctx := by
  simp only [rcvmsgUpdateCtx]
  split <;> rfl

@[simp] theorem rcvmsgUpdateCtx_testFile : (rcvmsgUpdateCtx r c).testFile = r.testFile := by
  simp only [rcvmsgUpdateCtx]
  split <;> rfl

@[simp] theorem rcvmsgUpdateCtx_testLine : (rcvmsgUpdateCtx r c).testLine = r.testLine := by
  simp only [rcvmsgUpdateCtx]
  split <;> rfl

@[simp] theorem rcvmsgUpdateLoc_lastctx : (rcvmsgUpdateLoc r file line).lastctx = r.lastctx := by
  unfold rcvmsgUpdateLoc
  split <;> rfl

@[simp] theorem rcvmsgUpdateLoc_msg : (rcvmsgUpdateLoc r file line).msg = r.msg := by
  unfold rcvmsgUpdateLoc
  split <;> rfl

@[simp] theorem rcvmsgUpdateLoc_failctx : (rcvmsgUpdateLoc r file line).failctx = r.failctx := by
  unfold rcvmsgUpdateLoc
  split <;> rfl

end

/-- A failure that was received is not forgotten. -/
theorem received_msg_ne_none {ms : List SendMsg} {r : RcvMsg}
    (h : r.msg ≠ none ∨ ∃ t, .fail t ∈ ms) : (received r ms).msg ≠ none := by
  induction ms generalizing r with
  | nil => exact h.elim id fun ⟨_, ht⟩ => absurd ht List.not_mem_nil
  | cons m ms ih =>
      refine ih ?_
      rcases h with h | ⟨t, ht⟩
      · left
        cases m with
        | ctx c =>
            show (rcvmsgUpdateCtx r c).msg ≠ none
            rw [rcvmsgUpdateCtx_msg]
            exact h
        | fail t =>
            show (applyMsg r (.fail (t.getD .empty))).msg ≠ none
            rw [applyMsg, if_neg h]
            exact h
        | loc file line =>
            show (applyMsg r (.loc (file.getD .empty) line)).msg ≠ none
            rw [applyMsg]
            split
            · rw [rcvmsgUpdateLoc_msg]
              exact h
            · exact h
        | duration d => exact h
      · rcases List.mem_cons.mp ht with rfl | ht
        · left
          show (applyMsg r (.fail (t.getD .empty))).msg ≠ none
          rw [applyMsg]
          split
          · exact Option.some_ne_none _
          · next h => exact h
        · exact .inr ⟨t, ht⟩

/-- The context that a message announces. -/
def ctx? : SendMsg → Option CkResultCtx
  | .ctx c => some c
  | _ => none

/-- The last context among messages. -/
def lastCtx (ms : List SendMsg) : Option CkResultCtx := (ms.filterMap ctx?).getLast?

theorem lastctx_applyMsg (r : RcvMsg) (m : SendMsg) :
    (applyMsg r (SendMsg.seen m)).lastctx = (ctx? m).getD r.lastctx := by
  cases m with
  | ctx c => rfl
  | fail t =>
      simp only [SendMsg.seen, CheckMsg.map, applyMsg]
      split <;> rfl
  | loc file line =>
      simp only [SendMsg.seen, CheckMsg.map, applyMsg]
      split
      · rw [rcvmsgUpdateLoc_lastctx]
        rfl
      · rfl
  | duration d => rfl

/-- The receiver is left in the last context that was announced. -/
theorem lastctx_received (r : RcvMsg) (ms : List SendMsg) :
    (received r ms).lastctx = (lastCtx ms).getD r.lastctx := by
  induction ms generalizing r with
  | nil => rfl
  | cons m ms ih =>
      rw [received_cons, ih, lastctx_applyMsg, lastCtx, lastCtx, List.filterMap_cons]
      cases ctx? m with
      | none => rfl
      | some c =>
          rw [List.getLast?_cons]
          cases (List.filterMap ctx? ms).getLast? <;> rfl

theorem mem_of_lastCtx {ms : List SendMsg} {c : CkResultCtx} (h : lastCtx ms = some c) :
    .ctx c ∈ ms := by
  obtain ⟨m, hm, hc⟩ := List.mem_filterMap.mp (List.mem_of_getLast? h)
  cases m with
  | ctx c' =>
      obtain rfl : c' = c := by simpa [ctx?] using hc
      exact hm
  | _ => simp [ctx?] at hc

/-- The last context that was received is one that was sent. -/
theorem received_lastctx_ne_invalid {ms : List SendMsg} {r : RcvMsg}
    (hr : r.lastctx ≠ .invalid) (h : ∀ m ∈ ms, m ≠ .ctx .invalid) :
    (received r ms).lastctx ≠ .invalid := by
  rw [lastctx_received]
  cases hlast : lastCtx ms with
  | none => exact hr
  | some c =>
      rintro rfl
      exact h _ (mem_of_lastCtx hlast) rfl

namespace RcvMsg

/-- No failure has been received, and the last context is `c`. -/
structure Clean (c : CkResultCtx) (r : RcvMsg) : Prop where
  msg : r.msg = none
  failctx : r.failctx = .invalid
  lastctx : r.lastctx = c

/-- The first failure that was received is `f`, in the context `c`. -/
structure Failed (c : CkResultCtx) (f : Failure) (r : RcvMsg) : Prop where
  msg : r.msg = some f.text
  failctx : r.failctx = c
  lastctx : r.lastctx ≠ .invalid
  file : (if c = .test then r.testFile else r.fixtureFile) = some f.loc.file
  line : (if c = .test then r.testLine else r.fixtureLine) = f.loc.line

/-- The place of the test is known. -/
def TestLoc (loc : SrcLoc) (r : RcvMsg) : Prop :=
  r.testFile = some loc.file ∧ r.testLine = loc.line

theorem Clean.updateCtx {r : RcvMsg} (h : Clean c r) (c' : CkResultCtx) :
    Clean c' (rcvmsgUpdateCtx r c') := by
  constructor <;> simp [h.msg, h.failctx]

theorem Clean.updateLoc {r : RcvMsg} (h : Clean c r) (file : CStr) (line : Int32) :
    Clean c (rcvmsgUpdateLoc r file line) := by
  constructor <;> simp [h.msg, h.failctx, h.lastctx]

/-- A place is recorded as long as nothing has failed. -/
theorem Clean.applyMsg_loc {r : RcvMsg} (h : Clean c r) (loc : SrcLoc) :
    applyMsg r (SendMsg.seen loc.msg) = rcvmsgUpdateLoc r loc.file loc.line := if_pos h.failctx

/-- Without failure messages, nothing has failed. -/
theorem Clean.received {ms : List SendMsg} {r : RcvMsg} (hr : Clean c r)
    (h : ∀ m ∈ ms, ∀ t, m ≠ .fail t) : ∃ c, Clean c (received r ms) := by
  induction ms generalizing r c with
  | nil => exact ⟨c, hr⟩
  | cons m ms ih =>
      have hrest : ∀ m ∈ ms, ∀ t, m ≠ .fail t := fun q hq => h q (List.mem_cons_of_mem m hq)
      cases m with
      | ctx c' => exact ih (hr.updateCtx c') hrest
      | fail t => exact absurd rfl (h _ List.mem_cons_self t)
      | loc file line =>
          have happly : applyMsg r (.loc (file.getD .empty) line) =
              rcvmsgUpdateLoc r (file.getD .empty) line := if_pos hr.failctx
          have hloc := hr.updateLoc (file.getD .empty) line
          rw [← happly] at hloc
          exact ih hloc hrest
      | duration d =>
          exact ih (r := { r with duration := d }) ⟨hr.msg, hr.failctx, hr.lastctx⟩ hrest

theorem Clean.duration {r : RcvMsg} (h : Clean c r) (d : Int32) :
    Clean c (LibCheck.received r [.duration d]) := ⟨h.msg, h.failctx, h.lastctx⟩

theorem clean_rcvmsgCreate : Clean .invalid rcvmsgCreate := ⟨rfl, rfl, rfl⟩

theorem TestLoc.updateCtx {r : RcvMsg} {loc : SrcLoc} (h : TestLoc loc r) (c : CkResultCtx) :
    TestLoc loc (rcvmsgUpdateCtx r c) := by
  rw [TestLoc, rcvmsgUpdateCtx_testFile, rcvmsgUpdateCtx_testLine]
  exact h

theorem TestLoc.duration {r : RcvMsg} {loc : SrcLoc} (h : TestLoc loc r) (d : Int32) :
    TestLoc loc (LibCheck.received r [.duration d]) := h

/-- A place of the test. -/
theorem testLoc_updateLoc {r : RcvMsg} (h : r.lastctx = .test) (loc : SrcLoc) :
    TestLoc loc (rcvmsgUpdateLoc r loc.file loc.line) := by
  rw [rcvmsgUpdateLoc, if_pos h]
  exact ⟨rfl, rfl⟩

/-- A place of a fixture. -/
theorem TestLoc.updateLoc {r : RcvMsg} {loc : SrcLoc} (h : TestLoc loc r)
    (hne : r.lastctx ≠ .test) (file : CStr) (line : Int32) :
    TestLoc loc (rcvmsgUpdateLoc r file line) := by
  rw [rcvmsgUpdateLoc, if_neg hne]
  exact h

/-- A failing assertion. -/
theorem Clean.fail {r : RcvMsg} (h : Clean c r) (hc : c ≠ .invalid) (f : Failure) :
    Failed c f (LibCheck.received r [f.loc.msg, .fail (some f.text)]) := by
  have hloc := h.updateLoc f.loc.file f.loc.line
  have hrcv : LibCheck.received r [f.loc.msg, .fail (some f.text)] =
      { rcvmsgUpdateLoc r f.loc.file f.loc.line with
        msg := some f.text
        failctx := (rcvmsgUpdateLoc r f.loc.file f.loc.line).lastctx } := by
    have happly : LibCheck.received r [f.loc.msg, .fail (some f.text)] =
        applyMsg (applyMsg r (SendMsg.seen f.loc.msg)) (.fail f.text) := rfl
    rw [happly, h.applyMsg_loc, applyMsg, if_pos hloc.msg]
  rw [hrcv]
  refine ⟨rfl, hloc.lastctx, hloc.lastctx ▸ hc, ?_, ?_⟩ <;>
  · simp only [rcvmsgUpdateLoc, h.lastctx]
    split <;> rfl

/-- What a plain function leaves: nothing has failed, or its failure has been
received. -/
theorem Clean.messages (cfg : Config) {acts : List (Act ν)} (hp : Plain acts) {r : RcvMsg}
    (h : Clean c r) (hc : c ≠ .invalid) :
    match failureOf cfg acts with
    | none => Clean c (LibCheck.received r (messages cfg acts))
    | some f => Failed c f (LibCheck.received r (messages cfg acts)) := by
  induction hp generalizing r with
  | nil => exact h
  | markPoint loc hp ih =>
      rw [LibCheck.messages, received_cons, h.applyMsg_loc]
      exact ih (h.updateLoc _ _)
  | assertFailed loc expr msg => exact h.fail hc ⟨loc, failureText cfg expr msg⟩

/-- The place of a test that did not fail is the last one it has marked. -/
theorem TestLoc.messages_test {cfg : Config} {acts : List (Act ν)} (hp : Plain acts)
    (hf : failureOf cfg acts = none) {r : RcvMsg} {loc : SrcLoc} (h : TestLoc loc r)
    (hc : Clean .test r) : TestLoc (lastLoc loc acts)
      (LibCheck.received r (messages cfg acts)) := by
  induction hp generalizing r loc with
  | nil => exact h
  | markPoint loc' hp ih =>
      rw [LibCheck.messages, received_cons, hc.applyMsg_loc]
      exact ih hf (testLoc_updateLoc hc.lastctx loc') (hc.updateLoc _ _)
  | assertFailed loc' expr msg => cases hf

/-- A fixture does not change the place of the test. -/
theorem TestLoc.messages_fixture {cfg : Config} {acts : List (Act ν)} (hp : Plain acts)
    (hf : failureOf cfg acts = none) {r : RcvMsg} {loc : SrcLoc} (h : TestLoc loc r)
    (hc : Clean c r) (hne : c ≠ .test) :
    TestLoc loc (LibCheck.received r (messages cfg acts)) := by
  induction hp generalizing r with
  | nil => exact h
  | markPoint loc' hp ih =>
      rw [LibCheck.messages, received_cons, hc.applyMsg_loc]
      exact ih hf (h.updateLoc (hc.lastctx ▸ hne) _ _) (hc.updateLoc _ _)
  | assertFailed loc' expr msg => cases hf

/-- The failure of a test stays what it is, whatever follows. -/
theorem Failed.received_test {ms : List SendMsg} {r : RcvMsg} {f : Failure}
    (h : Failed .test f r) (hms : ∀ m ∈ ms, m ≠ .ctx .invalid) :
    Failed .test f (LibCheck.received r ms) := by
  induction ms generalizing r with
  | nil => exact h
  | cons m ms ih =>
      refine ih ?_ fun q hq => hms q (List.mem_cons_of_mem m hq)
      cases m with
      | ctx c =>
          have hc : c ≠ .invalid := fun he => hms _ List.mem_cons_self (congrArg _ he)
          have hfile := h.file
          have hline := h.line
          exact ⟨(rcvmsgUpdateCtx_msg r c).trans h.msg,
            (rcvmsgUpdateCtx_failctx r c).trans h.failctx, hc,
            (rcvmsgUpdateCtx_testFile r c).trans hfile, (rcvmsgUpdateCtx_testLine r c).trans hline⟩
      | fail t =>
          have happly : applyMsg r (.fail (t.getD .empty)) = r :=
            if_neg fun hn => nomatch hn.symm.trans h.msg
          show Failed .test f (applyMsg r (.fail (t.getD .empty)))
          rw [happly]
          exact h
      | loc file line =>
          have happly : applyMsg r (.loc (file.getD .empty) line) = r := by
            rw [applyMsg, if_neg]
            rw [h.failctx]
            decide
          show Failed .test f (applyMsg r (.loc (file.getD .empty) line))
          rw [happly]
          exact h
      | duration d => exact ⟨h.msg, h.failctx, h.lastctx, h.file, h.line⟩

/-- What a list of fixtures leaves that are called until one fails.  `A` is what
the header before each of them needs. -/
theorem Clean.sentBy (cfg : Config) {now : When} (hdr : List SendMsg) {A : RcvMsg → Prop}
    (hhdr : ∀ r, A r → Clean c (LibCheck.received r hdr)) (hA : ∀ r, Clean c r → A r)
    (hc : c ≠ .invalid) {fs : List (Fixture ν)} (hp : ∀ f ∈ fs, Plain (f.sfun.acts now))
    {r : RcvMsg} (hr : A r) :
    match firstFailure cfg now fs with
    | none => A (LibCheck.received r (sentBy cfg now hdr fs))
    | some f => Failed c f (LibCheck.received r (sentBy cfg now hdr fs)) := by
  induction fs generalizing r with
  | nil => exact hr
  | cons f fs ih =>
      have hmsgs := (hhdr r hr).messages cfg (hp f List.mem_cons_self) hc
      rw [firstFailure, List.findSome?_cons, LibCheck.sentBy, received_append, received_append]
      cases hf : failureOf cfg (f.sfun.acts now) with
      | none =>
          rw [hf] at hmsgs
          exact ih (fun g hg => hp g (List.mem_cons_of_mem f hg)) (hA _ hmsgs)
      | some g =>
          rw [hf] at hmsgs
          exact hmsgs

/-- Fixtures that do not fail leave the place of the test alone. -/
theorem TestLoc.sentBy {cfg : Config} {now : When} {c : CkResultCtx} {loc : SrcLoc}
    {fs : List (Fixture ν)} (hne : c ≠ .test) (hc : c ≠ .invalid)
    (hp : ∀ f ∈ fs, Plain (f.sfun.acts now)) (hf : firstFailure cfg now fs = none) {r : RcvMsg}
    (h : TestLoc loc r) (hr : Clean c' r) :
    TestLoc loc (LibCheck.received r (sentBy cfg now [.ctx c] fs)) := by
  induction fs generalizing r c' with
  | nil => exact h
  | cons f fs ih =>
      have hctx : Clean c (LibCheck.received r [.ctx c]) := hr.updateCtx c
      have hloc : TestLoc loc (LibCheck.received r [.ctx c]) := h.updateCtx c
      have hmsgs := hctx.messages cfg (hp f List.mem_cons_self) hc
      rw [firstFailure, List.findSome?_cons] at hf
      rw [LibCheck.sentBy, received_append, received_append]
      cases hff : failureOf cfg (f.sfun.acts now) with
      | none =>
          rw [hff] at hmsgs hf
          exact ih (fun g hg => hp g (List.mem_cons_of_mem f hg)) hf
            (hloc.messages_fixture (hp f List.mem_cons_self) hff hctx hne) hmsgs
      | some g =>
          rw [hff] at hf
          cases hf

/-! ## the report -/

/-- The message of a result is the failure that was received. -/
theorem msg_construct (r : RcvMsg) (w : Bool) : (constructTestResult r w).msg = r.msg := by
  have hloc : ∀ (tr : TestResult) (c : CkResultCtx), (trSetLocByCtx tr c r).msg = tr.msg := by
    intro tr c
    unfold trSetLocByCtx
    split <;> rfl
  simp only [constructTestResult]
  split
  · exact hloc _ _
  · next h =>
      have hnone : r.msg = none := Decidable.not_not.mp fun hn => h (.inl hn)
      rw [hnone]
      split
      · exact hloc _ _
      · exact hloc _ _

/-- The report of a failure. -/
theorem Failed.construct {r : RcvMsg} {f : Failure} (h : Failed c f r) (hc : c ≠ .invalid)
    (w : Bool) :
    constructTestResult r w =
      { trCreate with
        ctx := c, msg := some f.text, file := some f.loc.file, line := f.loc.line } := by
  have hmsg : r.msg ≠ none := h.msg ▸ Option.some_ne_none _
  have hctx : (if r.failctx ≠ .invalid then r.failctx else r.lastctx) = c := by
    rw [h.failctx, if_pos hc]
  have hmsg' : r.msg ≠ none ∨ w = true := .inl hmsg
  have hset : constructTestResult r w = trSetLocByCtx
      { trCreate with ctx := c, msg := r.msg } c r := by
    simp only [constructTestResult, if_pos hmsg', hctx]
  rw [hset, trSetLocByCtx, h.msg]
  have hfile := h.file
  have hline := h.line
  by_cases ht : c = .test
  · rw [if_pos ht] at hfile hline ⊢
    rw [hfile, hline]
  · rw [if_neg ht] at hfile hline ⊢
    rw [hfile, hline]

/-- The report of a test without a failure. -/
theorem Clean.construct {r : RcvMsg} {loc : SrcLoc} (h : Clean c r) (hc : c ≠ .setup)
    (hloc : TestLoc loc r) :
    constructTestResult r false =
      { trCreate with
        ctx := .test, msg := none, duration := r.duration
        file := some loc.file, line := loc.line } := by
  have hmsg : ¬ (r.msg ≠ none ∨ false = true) := by
    simp [h.msg]
  have hlast : r.lastctx ≠ .setup := h.lastctx ▸ hc
  simp only [constructTestResult, if_neg hmsg, if_neg hlast, trSetLocByCtx, if_true, hloc.1,
    hloc.2]

end RcvMsg

/-! ## tests -/

/-- The user code of one test: its checked fixtures, its function with the loop
index, and the occasion. -/
structure TestCode (ν : Type) where
  setups : List (Fixture ν)
  tfun : TF ν
  iter : Int
  teardowns : List (Fixture ν)
  now : When

/-- The code of a test of a test case. -/
def testCode {L : Type → Type} [Lists L] (heap : Heap L ν) (tc : TCaseId) (tfun : TF ν) (i : Int)
    (now : When) : TestCode ν where
  setups := Lists.elems (heap.lists (.fixtures .chSflst tc))
  tfun := tfun
  iter := i
  teardowns := Lists.elems (heap.lists (.fixtures .chTflst tc))
  now := now

/-- A plain function, and all it sends is within the limit. -/
def PlainFun (cfg : Config) (acts : List (Act ν)) : Prop :=
  Plain acts ∧ Limited cfg.maxMsg (messages cfg acts)

namespace TestCode

variable (cfg : Config) (t : TestCode ν)

/-- What the test function does. -/
def body : List (Act ν) := t.tfun.ttest.fn t.iter t.now

/-- What is sent before a test function is called. -/
def header : List SendMsg := [.ctx .test, t.tfun.ttest.loc.msg]

/-- All functions of the test are plain, and all messages within the limit. -/
structure Plain : Prop where
  setups : ∀ f ∈ t.setups, PlainFun cfg (f.sfun.acts t.now)
  body : PlainFun cfg t.body
  teardowns : ∀ f ∈ t.teardowns, PlainFun cfg (f.sfun.acts t.now)
  header : Limited cfg.maxMsg t.header
  ctx : ∀ c, Limited cfg.maxMsg [.ctx c]

/-- The first assertion that fails, in the order of execution, with the part of
the test it is in. -/
def failure : Option (CkResultCtx × Failure) :=
  match firstFailure cfg t.now t.setups, failureOf cfg t.body,
    firstFailure cfg t.now t.teardowns with
  | some f, _, _ => some (.setup, f)
  | none, some f, _ => some (.test, f)
  | none, none, some f => some (.teardown, f)
  | none, none, none => none

theorem failure_eq_none : t.failure cfg = none ↔ firstFailure cfg t.now t.setups = none ∧
    failureOf cfg t.body = none ∧ firstFailure cfg t.now t.teardowns = none := by
  rw [failure]
  cases firstFailure cfg t.now t.setups <;> cases failureOf cfg t.body <;>
    cases firstFailure cfg t.now t.teardowns <;> simp

/-- What is received of the function and the teardowns, in a process that goes
on with the teardowns after a failure (`stop` is false) or does not. -/
def mainStream (stop : Bool) : List SendMsg :=
  (t.header ++ messages cfg t.body) ++
    if stop && (failureOf cfg t.body).isSome then []
    else sentBy cfg t.now [.ctx .teardown] t.teardowns

/-- The receiver after the function and the teardowns. -/
theorem received_mainStream {t : TestCode ν} (ht : t.Plain cfg) {r : RcvMsg} (hr : r.Clean c)
    (stop : Bool) :
    match failureOf cfg t.body, firstFailure cfg t.now t.teardowns with
    | some f, _ => (received r (t.mainStream cfg stop)).Failed .test f
    | none, some f => (received r (t.mainStream cfg stop)).Failed .teardown f
    | none, none => ∃ c, (received r (t.mainStream cfg stop)).Clean c ∧ c ≠ .setup ∧ c ≠ .invalid ∧
        (received r (t.mainStream cfg stop)).TestLoc (lastLoc t.tfun.ttest.loc t.body) := by
  have hctx : (rcvmsgUpdateCtx r .test).Clean .test := hr.updateCtx .test
  have hhdr : received r t.header =
      rcvmsgUpdateLoc (rcvmsgUpdateCtx r .test) t.tfun.ttest.loc.file t.tfun.ttest.loc.line :=
    hctx.applyMsg_loc t.tfun.ttest.loc
  have hclean := hctx.updateLoc t.tfun.ttest.loc.file t.tfun.ttest.loc.line
  have hloc := RcvMsg.testLoc_updateLoc hctx.lastctx t.tfun.ttest.loc
  rw [← hhdr] at hclean hloc
  have hbody := hclean.messages cfg ht.body.1 (by decide)
  rw [mainStream, received_append, received_append]
  cases hf : failureOf cfg t.body with
  | some f =>
      rw [hf] at hbody
      cases stop with
      | true => exact hbody
      | false => exact hbody.received_test (ne_invalid_of_mem_sentBy (by decide))
  | none =>
      rw [hf] at hbody
      have htear : ∀ f ∈ t.teardowns, LibCheck.Plain (f.sfun.acts t.now) :=
        fun f hf => (ht.teardowns f hf).1
      have hA : ∃ c, (received (received r t.header) (messages cfg t.body)).Clean c ∧
          c ≠ .setup ∧ c ≠ .invalid := ⟨_, hbody, by decide, by decide⟩
      have hwalk := RcvMsg.Clean.sentBy (c := .teardown) cfg [.ctx .teardown]
        (A := fun r => ∃ c, r.Clean c ∧ c ≠ .setup ∧ c ≠ .invalid)
        (fun r ⟨_, hr, _⟩ => hr.updateCtx .teardown) (fun r hr => ⟨_, hr, by decide, by decide⟩)
        (by decide) htear hA
      simp only [Option.isSome_none, Bool.and_false, Bool.false_eq_true, if_false]
      cases hff : firstFailure cfg t.now t.teardowns with
      | some f =>
          rw [hff] at hwalk
          exact hwalk
      | none =>
          rw [hff] at hwalk
          obtain ⟨c, hc, hne⟩ := hwalk
          exact ⟨c, hc, hne.1, hne.2, (hloc.messages_test ht.body.1 hf hclean).sentBy (by decide)
            (by decide) htear hff hbody⟩

/-- What is received from a child process that runs the test for `d`
microseconds. -/
def childStream (d : Int32) : List SendMsg :=
  (.ctx .setup :: sentBy cfg t.now [] t.setups) ++
    if (firstFailure cfg t.now t.setups).isSome then []
    else t.mainStream cfg true ++
      if (failureOf cfg t.body).isSome || (firstFailure cfg t.now t.teardowns).isSome then []
      else [.duration d]

/-- The receiver after a child process. -/
theorem received_childStream {t : TestCode ν} (ht : t.Plain cfg) {r : RcvMsg} (hr : r.Clean c)
    (d : Int32) :
    match t.failure cfg with
    | some (c, f) => c ≠ .invalid ∧ (received r (t.childStream cfg d)).Failed c f
    | none => ∃ c, (received r (t.childStream cfg d)).Clean c ∧ c ≠ .setup ∧ c ≠ .invalid ∧
        (received r (t.childStream cfg d)).TestLoc (lastLoc t.tfun.ttest.loc t.body) := by
  have hsetups := RcvMsg.Clean.sentBy (c := .setup) cfg []
    (A := fun r => r.Clean .setup) (fun _ hr => hr) (fun _ hr => hr) (by decide)
    (fun f hf => (ht.setups f hf).1) (hr.updateCtx .setup)
  have hsplit : received r (t.childStream cfg d) =
      received (received (rcvmsgUpdateCtx r .setup) (sentBy cfg t.now [] t.setups))
        (if (firstFailure cfg t.now t.setups).isSome then []
          else t.mainStream cfg true ++
            if (failureOf cfg t.body).isSome || (firstFailure cfg t.now t.teardowns).isSome then []
            else [.duration d]) := by
    rw [childStream, received_append]
    rfl
  rw [failure, hsplit]
  cases hs : firstFailure cfg t.now t.setups with
  | some f =>
      rw [hs] at hsetups
      simp only [Option.isSome_some, if_true, received_nil]
      exact ⟨by decide, hsetups⟩
  | none =>
      rw [hs] at hsetups
      have hmain := received_mainStream cfg ht hsetups true
      simp only [Option.isSome_none, Bool.false_eq_true, if_false, received_append]
      cases hb : failureOf cfg t.body with
      | some f =>
          rw [hb] at hmain
          simp only [Option.isSome_some, Bool.true_or, if_true, received_nil]
          exact ⟨by decide, hmain⟩
      | none =>
          rw [hb] at hmain
          cases hf : firstFailure cfg t.now t.teardowns with
          | some f =>
              rw [hf] at hmain
              simp only [Option.isSome_some, Bool.or_true, if_true, received_nil]
              exact ⟨by decide, hmain⟩
          | none =>
              rw [hf] at hmain
              obtain ⟨c, hc, hne, hne', hloc⟩ := hmain
              simp only [Option.isSome_none, Bool.or_self, Bool.false_eq_true, if_false]
              exact ⟨c, hc.duration d, hne, hne', hloc.duration d⟩

theorem nonNeg_mainStream (stop : Bool) : ∀ m ∈ t.mainStream cfg stop, m.NonNeg := by
  intro m hm
  rw [mainStream, List.mem_append, List.mem_append] at hm
  rcases hm with (hm | hm) | hm
  · revert m
    exact List.forall_mem_cons.mpr ⟨trivial,
      List.forall_mem_singleton.mpr t.tfun.ttest.loc.line_nonneg⟩
  · exact nonNeg_messages _ _ m hm
  · split at hm
    · exact absurd hm List.not_mem_nil
    · exact nonNeg_sentBy _ _ (List.forall_mem_singleton.mpr (nonNeg_ctx _)) _ m hm

theorem nonNeg_childStream {d : Int32} (hd : t.failure cfg = none → 0 ≤ d.toInt) :
    ∀ m ∈ t.childStream cfg d, m.NonNeg := by
  intro m hm
  rw [childStream, List.mem_append, List.mem_cons] at hm
  rcases hm with (rfl | hm) | hm
  · trivial
  · exact nonNeg_sentBy _ _ (fun _ h => absurd h List.not_mem_nil) _ m hm
  · split at hm
    · exact absurd hm List.not_mem_nil
    · next hs =>
        rcases List.mem_append.mp hm with hm | hm
        · exact t.nonNeg_mainStream cfg true m hm
        · split at hm
          · exact absurd hm List.not_mem_nil
          · next hb =>
              rw [Bool.or_eq_true, not_or, Option.not_isSome_iff_eq_none,
                Option.not_isSome_iff_eq_none] at hb
              rw [Option.not_isSome_iff_eq_none] at hs
              rw [List.mem_singleton.mp hm]
              exact hd (by rw [failure, hs, hb.1, hb.2])

/-- The verdict on the test, and what is reported with it. -/
def Reports (tcname : CStr) (tr : TestResult) : Prop :=
  tr.tcname = some tcname ∧
    match t.failure cfg with
    | some (c, f) => f.Reported c tr
    | none => tr.rtype = .pass ∧ tr.ctx = .test ∧ tr.msg = some passMsg ∧
        tr.file = some (lastLoc t.tfun.ttest.loc t.body).file ∧
        tr.line = (lastLoc t.tfun.ttest.loc t.body).line

variable {cfg} in
/-- The code of a test determines what is reported. -/
theorem Reports.agree {t : TestCode ν} {tcname : CStr} {tr tr' : TestResult}
    (h : t.Reports cfg tcname tr) (h' : t.Reports cfg tcname tr') :
    tr.rtype = tr'.rtype ∧ tr.ctx = tr'.ctx ∧ tr.msg = tr'.msg ∧ tr.file = tr'.file ∧
      tr.line = tr'.line ∧ tr.tcname = tr'.tcname := by
  obtain ⟨htc, h⟩ := h
  obtain ⟨htc', h'⟩ := h'
  cases hf : t.failure cfg with
  | some cf =>
      rw [hf] at h h'
      obtain ⟨h1, h2, h3, h4, h5⟩ := h
      obtain ⟨h1', h2', h3', h4', h5'⟩ := h'
      exact ⟨h1.trans h1'.symm, h2.trans h2'.symm, h3.trans h3'.symm, h4.trans h4'.symm,
        h5.trans h5'.symm, htc.trans htc'.symm⟩
  | none =>
      rw [hf] at h h'
      obtain ⟨h1, h2, h3, h4, h5⟩ := h
      obtain ⟨h1', h2', h3', h4', h5'⟩ := h'
      exact ⟨h1.trans h1'.symm, h2.trans h2'.symm, h3.trans h3'.symm, h4.trans h4'.symm,
        h5.trans h5'.symm, htc.trans htc'.symm⟩

end TestCode

end LibCheck
