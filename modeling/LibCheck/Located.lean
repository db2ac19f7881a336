import LibCheck.Death
import LibCheck.Endings
import LibCheck.Receiver
import LibCheck.Reentry

/-!
# LibCheck.Located

Where a result was produced, if the place is known.

* `TestCode.Marks` — the functions of a forked test mark a place before they end
  the process in a way that is reported under the context of a fixture.
* `RcvMsg.Phase`, `RcvMsg.Charged`, `RcvMsg.Begun` — what the receiver knows of
  places in the course of a test.
* `Knows`, `Leaves` — what a process has sent, and what its parent finds of it.
* `leads_testProcess` — a test process leaves a result with a place, however it
  ends.
* `Begins`, `RunBegins` — what a run has begun when it ends, and what it has
  recorded.
* `results_printable` — every result of a run has a place and all its texts, if no
  test case that it begins receives a failure of an unchecked teardown, and in
  `CK_FORK` mode the functions of each test that it begins mark their places.
-/

namespace LibCheck

open Prog

/-! ## marking a place -/

/-- `ppack` accepts the message. -/
def fits (cfg : Config) (m : SendMsg) : Bool :=
  match ppack cfg.sz cfg.maxMsg m with
  | .ok _ => true
  | .error _ => false

theorem wire_ppack_of_fits {cfg : Config} {m : SendMsg} (h : fits cfg m = true) :
    (Wire.ppack cfg m : Except EPrintf (List SendMsg)) = .ok [m] := by
  show (ppack cfg.sz cfg.maxMsg m).map (fun _ => [m]) = .ok [m]
  unfold fits at h
  cases hp : ppack cfg.sz cfg.maxMsg m with
  | ok buf => rfl
  | error e => simp [hp] at h

theorem fits_of_wire_ppack {cfg : Config} {m : SendMsg} {data : List SendMsg}
    (h : Wire.ppack cfg m = .ok data) : fits cfg m = true := by
  unfold fits
  have h : (ppack cfg.sz cfg.maxMsg m).map (fun _ => [m]) = .ok data := h
  cases hp : ppack cfg.sz cfg.maxMsg m with
  | ok buf => rfl
  | error e => simp [hp, Except.map] at h

/-- The step tells the receiver its place. -/
def Act.marks (cfg : Config) : Act ν → Bool
  | .markPoint loc => fits cfg loc.msg
  | .assertFailed loc _ _ => fits cfg loc.msg
  | _ => false

/-- The function returns: it does nothing but mark places. -/
def returns (cfg : Config) (acts : List (Act ν)) : Bool :=
  acts.all fun
    | .markPoint loc => fits cfg loc.msg
    | _ => false

/-- How a step ends the process that does not tell its place. -/
def Act.ending : Act ν → Stop
  | .exit status => .exited (exitCode status)
  | .raise sig => .signaled sig
  | _ => .exited 2

/-- A way to end a forked test that `waserror` does not count. -/
def Stop.quiet (signal : Int) : Stop → Bool
  | .exited code => code = 0
  | .signaled sig => (sig.1 : Int) = signal
  | _ => false

/-- User code that makes no calls back into the library. -/
def NoCalls (acts : List (Act ν)) : Prop := ∀ c, .call c ∉ acts

/-- Each checked teardown that is called marks a place before it ends the process,
unless it ends it by `exit(0)` or by the expected signal. -/
def teardownsMark (cfg : Config) (signal : Int) (now : When) : List (Fixture ν) → Bool
  | [] => true
  | f :: fs =>
      ((f.sfun.acts now).head?.all fun a => a.marks cfg || a.ending.quiet signal) &&
        (!returns cfg (f.sfun.acts now) || teardownsMark cfg signal now fs)

/-- The functions of a test make no calls back into the library. -/
structure TestCode.CallFree (t : TestCode ν) : Prop where
  setups : ∀ f ∈ t.setups, NoCalls (f.sfun.acts t.now)
  body : NoCalls t.body
  teardowns : ∀ f ∈ t.teardowns, NoCalls (f.sfun.acts t.now)

/-- The functions of a forked test that lasts `d` microseconds mark a place where
the end of the process needs one: its checked setups before they end it, and each
of its checked teardowns unless it ends it by `exit(0)` or by the expected signal.  The
messages of the library itself are accepted as well; that of the duration may be refused if the last
teardown has marked a place, or if there is none. -/
structure TestCode.Marks (cfg : Config) (d : Int32) (t : TestCode ν) : Prop where
  ctx : ∀ c ∈ [CkResultCtx.setup, .test, .teardown], fits cfg (.ctx c)
  setups : ∀ a ∈ (t.setups.flatMap fun f => f.sfun.acts t.now).head?, a.marks cfg
  header : (∀ f ∈ t.setups, returns cfg (f.sfun.acts t.now)) → fits cfg t.tfun.ttest.loc.msg
  teardowns : (∀ f ∈ t.setups, returns cfg (f.sfun.acts t.now)) → returns cfg t.body →
    teardownsMark cfg t.tfun.signal t.now t.teardowns
  duration : (∀ f ∈ t.setups, returns cfg (f.sfun.acts t.now)) → returns cfg t.body →
    (∀ f ∈ t.teardowns, returns cfg (f.sfun.acts t.now)) →
      fits cfg (.duration d) ∨ ∀ f ∈ t.teardowns.getLast?, f.sfun.acts t.now ≠ []

/-! ## what the receiver knows -/

/-- One of the contexts that the library announces. -/
def CkResultCtx.Known (c : CkResultCtx) : Prop := c = .setup ∨ c = .test ∨ c = .teardown

theorem CkResultCtx.Known.ne_invalid {c : CkResultCtx} (h : c.Known) : c ≠ .invalid := by
  rcases h with rfl | rfl | rfl <;> decide

namespace RcvMsg

/-- The file of the slot that belongs to a context. -/
def fileAt (r : RcvMsg) (c : CkResultCtx) : Option CStr :=
  if c = .test then r.testFile else r.fixtureFile

/-- The line of the slot that belongs to a context. -/
def lineAt (r : RcvMsg) (c : CkResultCtx) : Int32 := if c = .test then r.testLine else r.fixtureLine

/-- However the process ends, the result has a place. -/
def Located (r : RcvMsg) : Prop := ∀ w, (constructTestResult r w).file.isSome

/-- Nothing has failed. -/
def Calm (r : RcvMsg) : Prop := r.failctx = .invalid ∧ r.msg = none

/-- Nothing has failed, and the context is `c`.  The place of the context is known if
`P` holds, and that of the test if it is over. -/
structure Phase (c : CkResultCtx) (P : Prop) (r : RcvMsg) : Prop where
  lastctx : r.lastctx = c
  calm : r.Calm
  place : P → (r.fileAt c).isSome
  test : c = .teardown → r.testFile.isSome

/-- Something has failed in the context `c`, and its place is known. -/
structure Charged (c : CkResultCtx) (r : RcvMsg) : Prop where
  failctx : r.failctx = c
  msg : r.msg.isSome
  place : (r.fileAt c).isSome

/-- Nothing has failed in a test that has begun.  The place of the current context is
known if `P` holds. -/
def Begun (P : Prop) (r : RcvMsg) : Prop :=
  ∃ c, (c = .test ∨ c = .teardown) ∧ r.testFile.isSome ∧ Phase c P r

/-- Every known place has a line. -/
def Lined (r : RcvMsg) : Prop := ∀ c, (r.fileAt c).isSome → 0 ≤ (r.lineAt c).toInt

theorem constructTestResult_file (r : RcvMsg) (w : Bool) :
    (constructTestResult r w).file = r.fileAt (constructTestResult r w).ctx ∧
      (constructTestResult r w).line = r.lineAt (constructTestResult r w).ctx := by
  have hloc := constructTestResult_loc r w
  unfold fileAt lineAt
  split at hloc <;> simp_all

theorem Phase.weaken {c : CkResultCtx} {P P' : Prop} {r : RcvMsg} (h : Phase c P r) (hP : P' → P) :
    Phase c P' r :=
  ⟨h.lastctx, h.calm, fun hp => h.place (hP hp), h.test⟩

/-- A new context, other than that of a teardown. -/
theorem Calm.ctx {r : RcvMsg} (h : Calm r) {c : CkResultCtx} (hc : c ≠ .teardown) :
    Phase c False (applyMsg r (SendMsg.seen (.ctx c))) := by
  show Phase c False (rcvmsgUpdateCtx r c)
  refine ⟨rfl, ⟨?_, ?_⟩, fun hf => hf.elim, fun ht => absurd ht hc⟩
  · rw [rcvmsgUpdateCtx_failctx, h.1]
  · rw [rcvmsgUpdateCtx_msg, h.2]

/-- A teardown begins. -/
theorem Begun.teardown {P : Prop} {r : RcvMsg} (h : Begun P r) :
    Phase .teardown False (applyMsg r (SendMsg.seen (.ctx .teardown))) := by
  obtain ⟨c, -, htest, h⟩ := h
  show Phase .teardown False (rcvmsgUpdateCtx r .teardown)
  refine ⟨rfl, ⟨?_, ?_⟩, fun hf => hf.elim, fun _ => ?_⟩
  · rw [rcvmsgUpdateCtx_failctx, h.calm.1]
  · rw [rcvmsgUpdateCtx_msg, h.calm.2]
  · rw [rcvmsgUpdateCtx_testFile]
    exact htest

/-- A place. -/
theorem Phase.loc {c : CkResultCtx} {P : Prop} {r : RcvMsg} (h : Phase c P r) (loc : SrcLoc) :
    Phase c True (applyMsg r (SendMsg.seen loc.msg)) := by
  show Phase c True (if r.failctx = .invalid then rcvmsgUpdateLoc r loc.file loc.line else r)
  rw [if_pos h.calm.1, rcvmsgUpdateLoc]
  by_cases hc : c = .test
  · rw [if_pos (h.lastctx.trans hc)]
    refine ⟨h.lastctx, h.calm, fun _ => ?_, fun _ => rfl⟩
    rw [fileAt, if_pos hc]
    rfl
  · rw [if_neg fun he => hc (h.lastctx.symm.trans he)]
    refine ⟨h.lastctx, h.calm, fun _ => ?_, h.test⟩
    rw [fileAt, if_neg hc]
    rfl

/-- The message of a failure. -/
theorem Phase.fail {c : CkResultCtx} {P : Prop} {r : RcvMsg} (h : Phase c P r) (hP : P)
    (t : Option CStr) : Charged c (applyMsg r (SendMsg.seen (.fail t))) := by
  show Charged c (if r.msg = none then _ else r)
  rw [if_pos h.calm.2]
  exact ⟨h.lastctx, rfl, h.place hP⟩

theorem Phase.duration {c : CkResultCtx} {P : Prop} {r : RcvMsg} (h : Phase c P r) (d : Int32) :
    Phase c P (applyMsg r (SendMsg.seen (.duration d))) :=
  ⟨h.lastctx, h.calm, h.place, h.test⟩

theorem Charged.duration {c : CkResultCtx} {r : RcvMsg} (h : Charged c r) (d : Int32) :
    Charged c (applyMsg r (SendMsg.seen (.duration d))) :=
  ⟨h.failctx, h.msg, h.place⟩

/-- The failure of a test is not forgotten, nor is its place. -/
theorem Charged.apply {r : RcvMsg} (h : Charged .test r) (m : SendMsg) :
    Charged .test (applyMsg r (SendMsg.seen m)) := by
  obtain ⟨hfail, hmsg, hplace⟩ := h
  cases m with
  | ctx c =>
      show Charged .test (rcvmsgUpdateCtx r c)
      refine ⟨?_, ?_, ?_⟩
      · rw [rcvmsgUpdateCtx_failctx, hfail]
      · rw [rcvmsgUpdateCtx_msg]
        exact hmsg
      · rw [fileAt, if_pos rfl] at hplace ⊢
        rw [rcvmsgUpdateCtx_testFile]
        exact hplace
  | fail t =>
      show Charged .test (if r.msg = none then _ else r)
      rw [if_neg (Option.isSome_iff_ne_none.mp hmsg)]
      exact ⟨hfail, hmsg, hplace⟩
  | loc file line =>
      show Charged .test (if r.failctx = .invalid then _ else r)
      rw [if_neg (by rw [hfail]; decide)]
      exact ⟨hfail, hmsg, hplace⟩
  | duration d => exact ⟨hfail, hmsg, hplace⟩

theorem Charged.located {c : CkResultCtx} {r : RcvMsg} (h : Charged c r) (hc : c ≠ .invalid) :
    Located r := by
  intro w
  rw [(constructTestResult_file r w).1, constructTestResult_ctx,
    if_pos (.inl (Option.isSome_iff_ne_none.mp h.msg)), h.failctx, if_pos hc]
  exact h.place

/-- A result of a context whose place is known has a place: that of the context or, at
the end of a teardown, that of the test. -/
theorem Phase.located {c : CkResultCtx} {P : Prop} {r : RcvMsg} (h : Phase c P r) (hP : P)
    (hc : c.Known) : Located r := by
  intro w
  have hplace := h.place hP
  rw [(constructTestResult_file r w).1, constructTestResult_ctx, h.calm.1, h.lastctx]
  have htest : CkResultCtx.test ≠ .setup := by decide
  have htear : CkResultCtx.teardown ≠ .setup := by decide
  rcases hc with rfl | rfl | rfl
  · cases w <;> simpa [h.calm.2] using hplace
  · cases w <;> simpa [h.calm.2, htest] using hplace
  · cases w
    · simpa [h.calm.2, fileAt, htear] using h.test rfl
    · simpa [h.calm.2] using hplace

/-- A test without a failure that ended as expected has the place of the test. -/
theorem Begun.file {P : Prop} {r : RcvMsg} (h : Begun P r) :
    (constructTestResult r false).file.isSome := by
  obtain ⟨c, hc, htest, h⟩ := h
  have hne : r.lastctx ≠ .setup := by
    rw [h.lastctx]
    rcases hc with rfl | rfl <;> decide
  rw [(constructTestResult_file r false).1, constructTestResult_ctx, if_neg (by simp [h.calm.2]),
    if_neg hne]
  exact htest

theorem lined_received {ms : List SendMsg} (h : ∀ m ∈ ms, m.NonNeg) :
    Lined (received rcvmsgCreate ms) := by
  have hstep : ∀ (r : RcvMsg) (m : SendMsg), Lined r → m.NonNeg →
      Lined (applyMsg r (SendMsg.seen m)) := by
    intro r m hr hm c
    have hc := hr c
    cases m with
    | ctx c' =>
        show ((rcvmsgUpdateCtx r c').fileAt c).isSome → 0 ≤ ((rcvmsgUpdateCtx r c').lineAt c).toInt
        unfold rcvmsgUpdateCtx
        by_cases hl : r.lastctx = .invalid
        · simpa [hl, fileAt, lineAt] using hc
        · by_cases ht : c = .test
          · simpa [hl, ht, fileAt, lineAt, resetRcvFixture] using hc
          · simp [hl, ht, fileAt, lineAt, resetRcvFixture]
    | fail t =>
        simp only [SendMsg.seen, CheckMsg.map, applyMsg]
        split
        · simpa only [fileAt, lineAt] using hc
        · exact hc
    | loc file line =>
        have hline : 0 ≤ line.toInt := hm
        by_cases hf : r.failctx = .invalid
        · simp only [SendMsg.seen, CheckMsg.map, applyMsg, if_pos hf, rcvmsgUpdateLoc]
          by_cases hl : r.lastctx = .test <;> by_cases ht : c = .test <;>
            simp_all [fileAt, lineAt]
        · simpa only [SendMsg.seen, CheckMsg.map, applyMsg, if_neg hf] using hc
    | duration d => exact hc
  have hall : ∀ r : RcvMsg, Lined r → Lined (received r ms) := by
    induction ms with
    | nil => exact fun r hr => hr
    | cons m ms ih =>
        intro r hr
        rw [received_cons]
        exact ih (fun q hq => h q (List.mem_cons_of_mem m hq)) _
          (hstep r m hr (h m List.mem_cons_self))
  refine hall _ fun c hc => ?_
  simp [fileAt, rcvmsgCreate] at hc

end RcvMsg

open RcvMsg (Calm Phase Charged Begun Located)

/-! ## what a process has sent -/

/-- What a receiver would know of the messages in the current file. -/
def Proc.receiver (p : Proc SendMsg) : Option RcvMsg :=
  p.getPipe.map fun f => received rcvmsgCreate f.content

/-- Which of its two message files a process writes to, and the number of that file. -/
def Proc.outlet (p : Proc β) : Bool × Option Nat := (p.sendFile2.isSome, p.getPipe.map Pipe.id)

theorem Proc.outlet_congr {p q : Proc β} (h1 : q.sendFile1 = p.sendFile1)
    (h2 : q.sendFile2 = p.sendFile2) : q.outlet = p.outlet := by
  simp only [outlet, getPipe, h1, h2]

theorem Proc.outlet_granted (p : Proc β) : p.granted.outlet = p.outlet := by
  rw [granted_eq]
  rfl

theorem Proc.outlet_fwrite (data : List β) (p : Proc β) : (p.fwrite data).outlet = p.outlet := by
  cases h2 : p.sendFile2 <;> cases h1 : p.sendFile1 <;> simp [outlet, getPipe, fwrite, h1, h2]

/-- The parent of a process that still writes to the same file receives what the
process has sent. -/
theorem Proc.receiver_join {p q : Proc SendMsg} (h : q.outlet = p.outlet)
    (hq : q.getPipe.isSome) : (p.join q).receiver = q.receiver := by
  obtain ⟨h2, hid⟩ := Prod.mk.inj h
  cases p2 : p.sendFile2 <;> cases q2 : q.sendFile2 <;> cases p1 : p.sendFile1 <;>
    cases q1 : q.sendFile1 <;>
    simp_all [receiver, join, getPipe, sharedFile]

/-- The receiver of the current file knows what `Q` says.  A child of a given parent
writes to the same file as the parent, and nobody is going to kill it. -/
structure Knows (parent : Option (Proc SendMsg)) (Q : RcvMsg → Prop)
    (s : St List SendMsg NestedRun) : Prop where
  child : ∀ p ∈ parent, s.proc.killIn = none ∧ s.proc.outlet = p.outlet
  receiver : ∃ r, s.proc.receiver = some r ∧ Q r

/-- Where a child stops, its parent finds a file of which the receiver knows what `Q`
says. -/
def Leaves (parent : Option (Proc SendMsg)) (Q : RcvMsg → Prop) (s : St List SendMsg NestedRun) :
    Prop :=
  ∀ p ∈ parent, ∃ r, (p.join s.proc).receiver = some r ∧ Q r

theorem Knows.imp {parent : Option (Proc SendMsg)} {Q Q' : RcvMsg → Prop}
    {s : St List SendMsg NestedRun} (h : Knows parent Q s) (hQ : ∀ r, Q r → Q' r) :
    Knows parent Q' s := by
  obtain ⟨hchild, r, hr, hq⟩ := h
  exact ⟨hchild, r, hr, hQ r hq⟩

theorem Leaves.imp {parent : Option (Proc SendMsg)} {Q Q' : RcvMsg → Prop}
    {s : St List SendMsg NestedRun} (h : Leaves parent Q s) (hQ : ∀ r, Q r → Q' r) :
    Leaves parent Q' s := by
  intro p hp
  obtain ⟨r, hr, hq⟩ := h p hp
  exact ⟨r, hr, hQ r hq⟩

theorem Knows.leaves {parent : Option (Proc SendMsg)} {Q : RcvMsg → Prop}
    {s : St List SendMsg NestedRun} (h : Knows parent Q s) : Leaves parent Q s := by
  intro p hp
  obtain ⟨r, hr, hq⟩ := h.receiver
  obtain ⟨f, hf, -⟩ := Option.map_eq_some_iff.mp hr
  exact ⟨r, (Proc.receiver_join (h.child p hp).2 (by rw [hf]; rfl)).trans hr, hq⟩

section

variable {x : Ctx} {parent : Option (Proc SendMsg)} {Q : RcvMsg → Prop}

/-- A message is accepted and sent, unless the process is killed or ends itself. -/
theorem leads_sendMsg (m : SendMsg) :
    Leads (Knows parent Q)
      (fun _ s => fits x.cfg m = true ∧
        Knows parent (fun r => ∃ r0, Q r0 ∧ r = applyMsg r0 (SendMsg.seen m)) s)
      (fun e s => Leaves parent (fun r => Q r ∧ fits x.cfg m = false ∧ e = .exited 2) s)
      (sendMsg x m : RunM List SendMsg NestedRun Unit) := by
  intro s hs
  obtain ⟨hchild, r, hr, hq⟩ := id hs
  obtain ⟨f, hf, rfl⟩ := Option.map_eq_some_iff.mp hr
  rcases sendMsg_apply x m s with ⟨n, sig, hk, he⟩ | ⟨-, he⟩ | ⟨data, hm, -, he⟩
  · rw [he]
    intro p hp
    rw [(hchild p hp).1] at hk
    cases hk
  · rw [he]
    intro p hp
    obtain ⟨halive, hout⟩ := hchild p hp
    have hpipe : s.proc.granted.getPipe = some f := by rw [Proc.getPipe_granted, hf]
    refine ⟨received rcvmsgCreate f.content, ?_, hq, ?_, rfl⟩
    · show (p.join s.proc.granted).receiver = _
      rw [Proc.receiver_join (s.proc.outlet_granted.trans hout) (by rw [hpipe]; rfl), Proc.receiver,
        hpipe]
      rfl
    · -- an accepted message would have been sent
      have hkill : killPoint s = (.ok () s : EStateM.Result _ _ _) := by
        rw [killPoint, read_bind, halive]
        rfl
      refine Bool.eq_false_iff.mpr fun hfits => ?_
      rw [sendMsg, bind_of_ok _ hkill, read_bind, hf, wire_ppack_of_fits hfits] at he
      cases he
  · have hsent := he
    rw [he]
    obtain ⟨g, hg, hcont⟩ := sendMsg_content hf hsent
    refine ⟨fits_of_wire_ppack hm, fun p hp => ?_, received rcvmsgCreate (f.content ++ [m]), ?_, _,
      hq, ?_⟩
    · obtain ⟨halive, hout⟩ := hchild p hp
      have hgranted : s.proc.granted = s.proc := by simp only [Proc.granted, halive]
      show (s.proc.granted.fwrite data).killIn = none ∧ (s.proc.granted.fwrite data).outlet = _
      rw [hgranted, Proc.outlet_fwrite, Proc.fwrite_eq]
      exact ⟨halive, hout⟩
    · rw [Proc.receiver, hg, Option.map_some, hcont]
    · rw [received_append]
      rfl

theorem leads_killPoint :
    Leads (Knows parent Q) (fun _ => Knows parent Q) (fun _ => Leaves parent fun _ => False)
      (killPoint : RunM List SendMsg NestedRun Unit) := by
  intro s hs
  rw [killPoint, read_bind]
  cases hk : s.proc.killIn with
  | none => exact hs
  | some k =>
      have hchild : ∀ p ∈ parent, False := by
        intro p hp
        rw [(hs.child p hp).1] at hk
        cases hk
      obtain ⟨_ | n, sig⟩ := k
      · exact fun p hp => (hchild p hp).elim
      · exact ⟨fun p hp => (hchild p hp).elim, hs.receiver⟩

/-- Nothing that concerns the messages changes. -/
theorem leads_update {f : Proc SendMsg → Proc SendMsg} (h1 : ∀ p, (f p).sendFile1 = p.sendFile1)
    (h2 : ∀ p, (f p).sendFile2 = p.sendFile2) (hk : ∀ p, (f p).killIn = p.killIn)
    {E : Stop → St List SendMsg NestedRun → Prop} :
    Leads (Knows parent Q) (fun _ => Knows parent Q) E (update (St.onProc f)) := by
  refine Leads.update fun s hs => ⟨fun p hp => ?_, ?_⟩
  · obtain ⟨halive, hout⟩ := hs.child p hp
    exact ⟨(hk s.proc).trans halive, (Proc.outlet_congr (h1 _) (h2 _)).trans hout⟩
  · obtain ⟨r, hr, hq⟩ := hs.receiver
    refine ⟨r, ?_, hq⟩
    show (f s.proc).receiver = some r
    rw [← hr]
    simp only [Proc.receiver, Proc.getPipe, h1, h2]

end

/-! ## user functions -/

/-- What a function leaves that ends the process: the result has a place, or the
place was not known before and the first step did not tell it. -/
def Quits (cfg : Config) (c : CkResultCtx) (P : Prop) (acts : List (Act ν)) (e : Stop)
    (r : RcvMsg) : Prop :=
  Located r ∨ (Phase c P r ∧ ∃ a, acts.head? = some a ∧ a.marks cfg = false ∧ e = a.ending)

section

variable {x : Ctx} {parent : Option (Proc SendMsg)} {c : CkResultCtx} (hc : c.Known) {P : Prop}

/-- A place. -/
theorem leads_loc (loc : SrcLoc) :
    Leads (Knows parent (Phase c P))
      (fun _ s => fits x.cfg loc.msg = true ∧ Knows parent (Phase c True) s)
      (fun e s => Leaves parent
        (fun r => Phase c P r ∧ fits x.cfg loc.msg = false ∧ e = .exited 2) s)
      (sendLocInfo x loc : RunM List SendMsg NestedRun Unit) := by
  refine (leads_sendMsg loc.msg).weaken (fun _ h => h) (fun _ s h => ⟨h.1, h.2.imp fun r hr => ?_⟩)
    fun _ _ h => h
  obtain ⟨r0, h0, rfl⟩ := hr
  exact h0.loc loc

include hc

theorem leads_assertFailed (loc : SrcLoc) (expr : CStr) (msg : Option CStr) :
    Leads (Knows parent (Phase c P)) (fun _ => Knows parent (Charged c))
      (fun e s => Leaves parent (fun r => Located r ∨
        (Phase c P r ∧ fits x.cfg loc.msg = false ∧ e = .exited 2)) s)
      (ckAssertFailed x loc expr msg : RunM List SendMsg NestedRun Unit) := by
  have hfail : Leads (Knows parent (Phase c True)) (fun _ => Knows parent (Charged c))
      (fun _ => Leaves parent Located) (sendFailureInfo x (failureText x.cfg expr msg) :
        RunM List SendMsg NestedRun Unit) := by
    refine (leads_sendMsg _).weaken (fun _ h => h) (fun _ _ h => h.2.imp ?_) fun _ _ h =>
      h.imp fun r hr => hr.1.located trivial hc
    rintro r ⟨r0, h0, rfl⟩
    exact h0.fail trivial _
  refine Leads.bind (leads_update (f := Proc.observe x.lvl (.assertFailed ⟨loc, expr, msg⟩))
      (fun _ => rfl) (fun _ => rfl) fun _ => rfl) fun _ =>
    Leads.bind ((leads_loc loc).stop fun _ _ h => h.imp fun _ => .inr) fun _ =>
      Leads.bind (Leads.of_imp fun _ => hfail.stop fun _ _ h => h.imp fun _ => .inl) fun _ => ?_
  intro s hs
  have hleft : ∀ e : Stop, Leaves parent (fun r => Located r ∨
      (Phase c P r ∧ fits x.cfg loc.msg = false ∧ e = .exited 2)) s :=
    fun _ => hs.leaves.imp fun _ hr => .inl (hr.located hc.ne_invalid)
  rw [read_bind]
  by_cases hf : s.proc.fstat = .fork
  · rw [if_pos (decide_eq_true hf)]
    exact hleft _
  · rw [if_neg (by simp [hf]), read_bind]
    by_cases hj : s.proc.errorJmpBuffer = some x.lvl
    · rw [if_pos (decide_eq_true hj)]
      exact hs
    · rw [if_neg (by simp [hj])]
      exact hleft _

/-- Where the place was known before, the result has a place. -/
theorem Quits.located {cfg : Config} {acts : List (Act ν)} {e : Stop} {r : RcvMsg}
    (h : Quits cfg c P acts e r) (hP : P) : Located r := by
  rcases h with h | ⟨h, -⟩
  · exact h
  · exact h.located hP hc

omit hc in
/-- What a user function leaves.  If it returns it has done nothing but mark places;
if it is left by a jump its place is known. -/
def Ends (x : Ctx) (parent : Option (Proc SendMsg)) (c : CkResultCtx) (P : Prop)
    (acts : List (Act NestedRun)) (b : Bool) (s : St List SendMsg NestedRun) : Prop :=
  if b then Knows parent (Charged c) s
  else returns x.cfg acts = true ∧ Knows parent (Phase c (P ∨ acts ≠ [])) s

theorem leads_runFun {acts : List (Act NestedRun)} (hcalls : NoCalls acts) {P : Prop} :
    Leads (Knows parent (Phase c P)) (Ends x parent c P acts)
      (fun e s => Leaves parent (Quits x.cfg c P acts e) s) (runFun x (runNested x) acts) := by
  induction acts generalizing P with
  | nil => exact Leads.pure fun s h => ⟨rfl, h.imp fun r hr => hr.weaken (by simp)⟩
  | cons act acts ih =>
      have hcalls' : NoCalls acts := fun n hn => hcalls n (List.mem_cons_of_mem act hn)
      cases act with
      | markPoint loc =>
          refine Leads.bind ((leads_loc loc).stop fun _ _ h => h.imp fun r hr =>
            .inr ⟨hr.1, _, rfl, hr.2⟩) fun _ =>
            Leads.of_imp fun hfits => (ih hcalls' (P := True)).weaken (fun _ h => h) ?_
              fun _ _ h => h.imp fun r hr => .inl (hr.located hc trivial)
          intro b s h
          cases b with
          | true => exact h
          | false =>
              refine ⟨?_, h.2.imp fun r hr => hr.weaken fun _ => .inl trivial⟩
              simpa [returns, hfits] using h.1
      | assertFailed loc expr msg =>
          exact Leads.bind ((leads_assertFailed hc loc expr msg).stop fun _ _ h => h.imp fun r hr =>
            hr.imp_right fun hr =>
              ⟨hr.1, _, rfl, hr.2⟩) fun _ => Leads.pure fun s h => h
      | exit status =>
          exact Leads.bind (leads_killPoint.stop fun _ _ h => h.imp fun _ hr => hr.elim) fun _ =>
              Leads.throw fun s h => h.leaves.imp fun r hr => .inr ⟨hr, _, rfl, rfl, rfl⟩
      | raise sig =>
          exact Leads.throw fun s h => h.leaves.imp fun r hr => .inr ⟨hr, _, rfl, rfl, rfl⟩
      | call n => exact absurd List.mem_cons_self (hcalls n)

end

/-! ## fixtures and tests -/

/-- With the given memory, and as `I` says. -/
abbrev Amid (m : Heap List NestedRun × SRunner List × When) (I : St List SendMsg NestedRun → Prop)
    (s : St List SendMsg NestedRun) : Prop := s.memory = m ∧ I s

section

variable {cfg : Config} {c : CkResultCtx} {P : Prop} {acts acts' : List (Act ν)} {e : Stop}
  {r : RcvMsg}

theorem Quits.append_left (h : Quits cfg c P acts e r) : Quits cfg c P (acts ++ acts') e r := by
  refine h.imp_right fun ⟨hr, a, ha, hmarks⟩ => ⟨hr, a, ?_, hmarks⟩
  rw [List.head?_append, ha]
  rfl

theorem Quits.append_right (hc : c.Known) (h : Quits cfg c (P ∨ acts ≠ []) acts' e r) :
    Quits cfg c P (acts ++ acts') e r := by
  by_cases hacts : acts = []
  · subst hacts
    exact h.imp_right fun ⟨hr, ha⟩ => ⟨hr.weaken .inl, ha⟩
  · exact .inl (h.located hc (.inr hacts))

end

section

variable {x : Ctx} {parent : Option (Proc SendMsg)} {c : CkResultCtx} (hc : c.Known) {P : Prop}
  {m : Heap List NestedRun × SRunner List × When}
include hc

theorem leads_callFixture (fl : FixtureList) {f : Fixture NestedRun}
    (hcalls : NoCalls (f.sfun.acts m.2.2)) :
    Leads (Amid m (Knows parent (Phase c P)))
      (fun b => Amid m (Ends x parent c P (f.sfun.acts m.2.2) b))
      (fun e => Leaves parent (Quits x.cfg c P (f.sfun.acts m.2.2) e))
      (callFixture x (runNested x) fl f) := by
  refine Leads.keeping ((testClosed_memory (keeps_runNested x)).callFixture fl f) ?_
  rintro s ⟨rfl, hs⟩
  have hobs := leads_update (f := Proc.observe x.lvl (.fixture fl f.sfun.addr)) (fun _ => rfl)
    (fun _ => rfl) (fun _ => rfl) (E := fun _ _ => False) s hs
  rw [callFixture, update_bind, read_bind]
  exact leads_runFun hc hcalls _ hobs

/-- A jump to a dead frame ends the process. -/
theorem leads_unprotected {I : St List SendMsg NestedRun → Prop} {acts : List (Act NestedRun)}
    {E : Stop → St List SendMsg NestedRun → Prop} {f : RunM List SendMsg NestedRun Bool}
    (hE : ∀ s, Leaves parent Located s → E .undefined s)
    (h : Leads I (fun b => Amid m (Ends x parent c P acts b)) E f) :
    Leads I (fun _ s => returns x.cfg acts = true ∧
      Amid m (Knows parent (Phase c (P ∨ acts ≠ []))) s)
      E (unprotected f) := by
  refine Leads.bind h fun b => ?_
  cases b with
  | true =>
      exact Leads.throw fun s hs =>
        hE s (Knows.leaves hs.2 |>.imp fun _ hr => Charged.located hr hc.ne_invalid)
  | false => exact Leads.pure fun s hs => ⟨hs.2.1, hs.1, hs.2.2⟩

/-- The setups of a forked test are like one function. -/
theorem leads_setups (fl : FixtureList) (tname sname : CStr) {fs : List (Fixture NestedRun)}
    (hcalls : ∀ f ∈ fs, NoCalls (f.sfun.acts m.2.2)) {P : Prop} :
    Leads (Amid m (Knows parent (Phase c P)))
      (fun _ s => (∀ f ∈ fs, returns x.cfg (f.sfun.acts m.2.2) = true) ∧
        Amid m (Knows parent (Phase c (P ∨ (fs.flatMap fun f => f.sfun.acts m.2.2) ≠ []))) s)
      (fun e => Leaves parent (Quits x.cfg c P (fs.flatMap fun f => f.sfun.acts m.2.2) e))
      (fs.findSomeM? (runSetup x (runNested x) fl .fork tname sname)) := by
  induction fs generalizing P with
  | nil => exact Leads.pure fun s hs => ⟨by simp, hs.1, hs.2.imp fun r hr => hr.weaken (by simp)⟩
  | cons f fs ih =>
      have hbody : Leads (Amid m (Knows parent (Phase c P)))
          (fun r s => (r = none ∧ returns x.cfg (f.sfun.acts m.2.2) = true) ∧
            Amid m (Knows parent (Phase c (P ∨ f.sfun.acts m.2.2 ≠ []))) s)
          (fun e => Leaves parent (Quits x.cfg c P (f.sfun.acts m.2.2) e))
          (runSetup x (runNested x) fl .fork tname sname f) := by
        rw [runSetup, if_neg (by decide)]
        exact Leads.bind (leads_unprotected hc (fun _ h => h.imp fun _ => .inl)
          (leads_callFixture hc fl (hcalls f List.mem_cons_self))) fun _ => Leads.pure fun s hs =>
            ⟨⟨rfl, hs.1⟩, hs.2⟩
      rw [List.flatMap_cons]
      refine Leads.bind (hbody.stop fun _ _ h =>
        h.imp fun _ => Quits.append_left) fun r => Leads.of_imp ?_
      rintro ⟨rfl, hret⟩
      refine (ih fun g hg => hcalls g (List.mem_cons_of_mem f hg)).weaken (fun _ h => h)
        (fun _ s h => ?_) fun _ _ h => h.imp fun _ => Quits.append_right hc
      obtain ⟨hrets, hm, hk⟩ := h
      refine ⟨List.forall_mem_cons.mpr ⟨hret, hrets⟩, hm, hk.imp fun r hr => hr.weaken fun h => ?_⟩
      grind

end

section

variable {x : Ctx} {parent : Option (Proc SendMsg)} {m : Heap List NestedRun × SRunner List × When}

theorem leads_protect {Q : RcvMsg → Prop} {J : Bool → St List SendMsg NestedRun → Prop}
    {E : Stop → St List SendMsg NestedRun → Prop} {f : RunM List SendMsg NestedRun Bool}
    (h : Leads (Amid m (Knows parent Q)) J E f) :
    Leads (Amid m (Knows parent Q)) J E (protect x f) := by
  rintro s ⟨hm, hs⟩
  have hjmp := leads_update (f := fun p => { p with errorJmpBuffer := some x.lvl }) (fun _ => rfl)
    (fun _ => rfl) (fun _ => rfl) (E := fun _ _ => False) s hs
  exact h _ ⟨hm, hjmp⟩

/-- The test function. -/
theorem leads_callTest (tfun : TF NestedRun) (i : Int) (hcalls : NoCalls (tfun.ttest.fn i m.2.2)) :
    Leads (Amid m (Knows parent Calm))
      (fun b => Amid m (Ends x parent .test True (tfun.ttest.fn i m.2.2) b))
      (fun _ => Leaves parent fun r => Located r ∨ fits x.cfg (.ctx .test) = false ∨
        fits x.cfg tfun.ttest.loc.msg = false) (callTest x (runNested x) tfun i) := by
  have hc : CkResultCtx.test.Known := .inr (.inl rfl)
  refine Leads.keeping ((testClosed_memory (keeps_runNested x)).callTest tfun i) ?_
  have hctx : Leads (Amid m (Knows parent Calm))
      (fun _ => Amid m (Knows parent (Phase .test False)))
      (fun _ => Leaves parent fun _ => fits x.cfg (.ctx .test) = false) (sendCtxInfo x .test) := by
    refine Leads.keeping (keeps_sendMsg x _) ((leads_sendMsg _).weaken (fun _ h => h.2)
      (fun _ _ h => h.2.imp ?_) fun _ _ h => h.imp fun _ hr => hr.2.1)
    rintro r ⟨r0, h0, rfl⟩
    exact h0.ctx (by decide)
  have hloc : Leads (Amid m (Knows parent (Phase .test False)))
      (fun _ => Amid m (Knows parent (Phase .test True)))
      (fun _ => Leaves parent fun _ => fits x.cfg tfun.ttest.loc.msg = false)
      (sendLocInfo x tfun.ttest.loc) :=
    Leads.keeping (keeps_sendMsg x _) ((leads_loc _).weaken (fun _ h => h.2)
      (fun _ _ h => h.2) fun _ _ h => h.imp fun _ hr => hr.2.1)
  refine Leads.bind (hctx.stop fun _ _ h =>
      h.imp fun _ hr => .inr (.inl hr)) fun _ =>
    Leads.bind (hloc.stop fun _ _ h =>
      h.imp fun _ hr => .inr (.inr hr)) fun _ => ?_
  rintro s ⟨rfl, hs⟩
  have hobs := leads_update (f := Proc.observe x.lvl (.body tfun.ttest.name i)) (fun _ => rfl)
    (fun _ => rfl) (fun _ => rfl) (E := fun _ _ => False) s hs
  rw [update_bind, read_bind]
  exact ((leads_runFun hc hcalls).stop fun _ _ h =>
    h.imp fun _ hr => .inl (hr.located hc trivial)) _ hobs

/-- A teardown. -/
theorem leads_runTeardown (fl : FixtureList) {f : Fixture NestedRun} {P : Prop}
    (hcalls : NoCalls (f.sfun.acts m.2.2)) :
    Leads (Amid m (Knows parent (Begun P)))
      (fun r => Amid m fun s => match r with
        | some _ => Knows parent (Charged .teardown) s
        | none => returns x.cfg (f.sfun.acts m.2.2) = true ∧
            Knows parent (Begun (f.sfun.acts m.2.2 ≠ [])) s)
      (fun e => Leaves parent fun r => fits x.cfg (.ctx .teardown) = false ∨
        Quits x.cfg .teardown False (f.sfun.acts m.2.2) e r)
      (runTeardown x (runNested x) fl .nofork f) := by
  have hc : CkResultCtx.teardown.Known := .inr (.inr rfl)
  have hctx : Leads (Amid m (Knows parent (Begun P)))
      (fun _ => Amid m (Knows parent (Phase .teardown False)))
      (fun _ => Leaves parent fun _ => fits x.cfg (.ctx .teardown) = false)
      (sendCtxInfo x .teardown) := by
    refine Leads.keeping (keeps_sendMsg x _) ((leads_sendMsg _).weaken (fun _ h => h.2)
      (fun _ _ h => h.2.imp ?_) fun _ _ h => h.imp fun _ hr => hr.2.1)
    rintro r ⟨r0, h0, rfl⟩
    exact h0.teardown
  rw [runTeardown, if_pos rfl]
  refine Leads.bind (hctx.stop fun _ _ h => h.imp fun _ => .inl)
    fun _ => Leads.bind (leads_protect ((leads_callFixture hc fl hcalls).stop fun _ _ h =>
      h.imp fun _ => .inr)) fun b => ?_
  cases b with
  | true => exact Leads.pure fun s hs => hs
  | false =>
      refine Leads.pure fun s hs => ⟨hs.1, hs.2.1, hs.2.2.imp fun r hr => ?_⟩
      exact ⟨.teardown, .inr rfl, hr.test rfl, hr.weaken .inr⟩

end

/-! ## the end of a test process -/

/-- The wait status of a process that stops so. -/
def Stop.status? : Stop → Option WaitStatus
  | .exited code => some (.exited code)
  | .signaled sig => some (.signaled sig)
  | _ => none

/-- The result of a test process that stops so has a place. -/
def Told (signal : Int) (e : Stop) (r : RcvMsg) : Prop :=
  ∀ status, e.status? = some status → (constructTestResult r (waserror status signal)).file.isSome

section

variable {signal : Int} {e : Stop} {r : RcvMsg} {P : Prop}

theorem RcvMsg.Located.told (h : Located r) : Told signal e r := fun _ _ => h _

theorem RcvMsg.Begun.told (h : Begun P r) (he : e.quiet signal = true) : Told signal e r := by
  intro status hstatus
  have hw : waserror status signal = false := by
    cases e <;> simp_all [Stop.status?, Stop.quiet, waserror] <;> subst hstatus <;> simp_all
  rw [hw]
  exact h.file

theorem RcvMsg.Begun.located (h : Begun P r) (hP : P) : Located r := by
  obtain ⟨c, hc, -, hr⟩ := h
  exact hr.located hP (.inr hc)

theorem RcvMsg.Begun.duration (h : Begun P r) (d : Int32) :
    Begun P (applyMsg r (SendMsg.seen (.duration d))) := by
  obtain ⟨c, hc, htest, hr⟩ := h
  exact ⟨c, hc, htest, hr.duration d⟩

theorem RcvMsg.Begun.weaken {P' : Prop} (h : Begun P r) (hP : P' → P) : Begun P' r := by
  obtain ⟨c, hc, htest, hr⟩ := h
  exact ⟨c, hc, htest, hr.weaken hP⟩

end

section

variable {x : Ctx} {parent : Option (Proc SendMsg)} {m : Heap List NestedRun × SRunner List × When}

theorem leads_forList {r : LRef} {body : r.Elem NestedRun → RunM List SendMsg NestedRun (Option α)}
    {I : St List SendMsg NestedRun → Prop} {J : Option α → St List SendMsg NestedRun → Prop}
    {E : Stop → St List SendMsg NestedRun → Prop}
    (h : Leads (Amid m I) J E ((m.1.lists r).findSomeM? body)) :
    Leads (Amid m I) J E (forList x r body) := by
  rintro s ⟨rfl, hs⟩
  exact h s ⟨rfl, hs⟩

/-- What the teardowns of a test leave: one of them fails, or all return. -/
def TornDown (x : Ctx) (now : When) (P : Prop) (fs : List (Fixture NestedRun))
    (r : RcvMsg) : Prop :=
  Charged .teardown r ∨ ((∀ f ∈ fs, returns x.cfg (f.sfun.acts now) = true) ∧
    Begun ((fs = [] → P) ∧ ∀ f ∈ fs.getLast?, f.sfun.acts now ≠ []) r)

theorem leads_teardowns (fl : FixtureList) (signal : Int) {fs : List (Fixture NestedRun)}
    (hcalls : ∀ f ∈ fs, NoCalls (f.sfun.acts m.2.2)) {P : Prop} :
    Leads (Amid m (Knows parent (Begun P)))
      (fun _ => Amid m (Knows parent (TornDown x m.2.2 P fs)))
      (fun e => Leaves parent fun r => fits x.cfg (.ctx .teardown) = true →
        teardownsMark x.cfg signal m.2.2 fs = true → Told signal e r)
      (fs.findSomeM? (runTeardown x (runNested x) fl .nofork)) := by
  induction fs generalizing P with
  | nil =>
      exact Leads.pure fun s hs => ⟨hs.1, hs.2.imp fun r hr =>
        .inr ⟨by simp, hr.weaken fun h => h.1 rfl⟩⟩
  | cons f fs ih =>
      refine Leads.bind ((leads_runTeardown fl (hcalls f List.mem_cons_self)).stop fun e _ h =>
        h.imp fun r hr hfits hmark => ?_) fun b => ?_
      · rw [teardownsMark, Bool.and_eq_true] at hmark
        rcases hr with hr | hr | ⟨hr, a, ha, hmarks, rfl⟩
        · rw [hfits] at hr
          cases hr
        · exact hr.told
        · have hquiet : a.ending.quiet signal = true := by
            simpa [ha, hmarks] using hmark.1
          exact RcvMsg.Begun.told ⟨.teardown, .inr rfl, hr.test rfl, hr⟩ hquiet
      · cases b with
        | some u => exact Leads.pure fun s hs => ⟨hs.1, Knows.imp hs.2 fun _ => .inl⟩
        | none =>
            rintro s ⟨hm, hret, hk⟩
            refine ((ih fun g hg => hcalls g (List.mem_cons_of_mem f hg)).weaken (fun _ h => h)
              (fun _ _ h => ⟨h.1, h.2.imp fun r hr => hr.imp_right fun hr => ?_⟩) fun _ _ h =>
                h.imp fun r hr hfits hmark => hr hfits ?_) s ⟨hm, hk⟩
            · rw [teardownsMark, Bool.and_eq_true, hret] at hmark
              exact hmark.2
            · refine ⟨List.forall_mem_cons.mpr ⟨hret, hr.1⟩, hr.2.weaken fun h => ?_⟩
              cases fs <;> simp_all

/-- The duration is sent, and the process ends. -/
theorem leads_duration {signal : Int} {now : When} {fs : List (Fixture NestedRun)} (d : Int32)
    (hd : (∀ f ∈ fs, returns x.cfg (f.sfun.acts now) = true) →
      fits x.cfg (.duration d) = true ∨ ∀ f ∈ fs.getLast?, f.sfun.acts now ≠ []) :
    Leads (Knows parent (TornDown x now True fs))
      (fun _ => Leaves parent (Told signal (.exited 0))) (fun e => Leaves parent (Told signal e))
      (do
        sendDurationInfo x d
        killPoint : RunM List SendMsg NestedRun Unit) := by
  refine Leads.bind ((leads_sendMsg (.duration d)).weaken (fun _ h => h) (fun _ _ h => h.2)
    fun e _ h => h.imp fun r ⟨hr, hfits, _⟩ => ?_) fun _ =>
      leads_killPoint.weaken (fun _ h => h) (fun _ _ h => h.leaves.imp fun r hr => ?_)
        fun _ _ h => h.imp fun _ hr => hr.elim
  · rcases hr with hr | ⟨hret, hr⟩
    · exact (hr.located (by decide)).told
    · have hlast := (hd hret).resolve_left (by rw [hfits]; decide)
      exact (hr.located ⟨fun _ => trivial, hlast⟩).told
  · obtain ⟨r0, h0, rfl⟩ := hr
    rcases h0 with h0 | ⟨-, h0⟩
    · exact ((h0.duration d).located (by decide)).told
    · exact (h0.duration d).told rfl

/-- The test function, in a test process. -/
theorem leads_testBody {tfun : TF NestedRun} {i : Int} (hcalls : NoCalls (tfun.ttest.fn i m.2.2))
    (hctx : fits x.cfg (.ctx .test) = true) (hloc : fits x.cfg tfun.ttest.loc.msg = true) :
    Leads (Amid m (Knows parent Calm))
      (fun _ s => returns x.cfg (tfun.ttest.fn i m.2.2) = true ∧
        Amid m (Knows parent (Begun True)) s)
      (fun e => Leaves parent (Told tfun.signal e))
      (unprotected (callTest x (runNested x) tfun i)) := by
  have hcall : Leads (Amid m (Knows parent Calm)) _
      (fun e => Leaves parent (Told tfun.signal e)) _ :=
    (leads_callTest tfun i hcalls).stop fun e s h => h.imp fun r hr => by
      rcases hr with hr | hr | hr
      · exact hr.told
      · rw [hctx] at hr
        cases hr
      · rw [hloc] at hr
        cases hr
  refine (leads_unprotected (.inr (.inl rfl)) (fun _ h => h.imp fun _ hr => hr.told) hcall).weaken
    (fun _ h => h) (fun _ s h => ⟨h.1, h.2.1, h.2.2.imp fun r hr => ?_⟩) fun _ _ h => h
  have hr := hr.weaken Or.inl
  exact ⟨.test, .inl rfl, hr.place trivial, hr⟩

/-- **What a test process leaves**: a result that has a place, if its functions mark
places. -/
theorem leads_testProcess {tc : TCaseId} {tfun : TF NestedRun} {i : Int}
    (hfork : forkStatusOf x.env m.2.1.fstat = .fork)
    (hcalls : (testCode m.1 tc tfun i m.2.2).CallFree)
    (hmarks : (testCode m.1 tc tfun i m.2.2).Marks x.cfg (testDuration x m.2.2)) :
    Leads (Amid m (Knows parent Calm)) (fun _ => Leaves parent (Told tfun.signal (.exited 0)))
      (fun e => Leaves parent (Told tfun.signal e)) (testProcess x (runNested x) tc tfun i) := by
  rintro s ⟨rfl, hs⟩
  have hctx : Leads (Amid s.memory (Knows parent Calm))
      (fun _ => Amid s.memory (Knows parent (Phase .setup False)))
      (fun e => Leaves parent (Told tfun.signal e)) (sendCtxInfo x .setup) := by
    refine Leads.keeping (keeps_sendMsg x _) ((leads_sendMsg _).weaken (fun _ h => h.2)
      (fun _ _ h => h.2.imp ?_) fun _ _ h => h.imp fun _ hr => ?_)
    · rintro r ⟨r0, h0, rfl⟩
      exact h0.ctx (by decide)
    · rw [hmarks.ctx .setup (by simp)] at hr
      cases hr.2.1
  have hset : Leads (Amid s.memory (Knows parent (Phase .setup False))) _
      (fun e => Leaves parent (Told tfun.signal e)) _ :=
    (leads_setups (.inl rfl) .chSflst (s.heap.tcName tc) (.lit "checked_setup")
      hcalls.setups).stop fun e _ h => h.imp fun r hr => by
        rcases hr with hr | ⟨-, a, ha, hno, -⟩
        · exact hr.told
        · rw [hmarks.setups a ha] at hno
          cases hno
  rw [testProcess_apply hfork]
  refine (Leads.bind hctx fun _ => Leads.bind (leads_forList hset) fun _ =>
    Leads.of_imp fun hset => Leads.bind ((leads_testBody hcalls.body (hmarks.ctx _ (by simp))
      (hmarks.header hset)).weaken (fun _ h => ⟨h.1, h.2.imp fun r hr => hr.calm⟩) (fun _ _ h => h)
        fun _ _ h => h) fun _ => Leads.of_imp fun hbody => ?_) s ⟨rfl, hs⟩
  have htear : Leads (Amid s.memory (Knows parent (Begun True)))
      (fun _ => Amid s.memory (Knows parent (TornDown x s.now True
        (s.heap.lists (.fixtures .chTflst tc)))))
      (fun e => Leaves parent (Told tfun.signal e)) (tcaseRunCheckedTeardown x (runNested x) tc) :=
    Leads.bind (leads_forList ((leads_teardowns .chTflst tfun.signal hcalls.teardowns).stop
      fun e _ h => h.imp fun r hr => hr (hmarks.ctx _ (by simp)) (hmarks.teardowns hset hbody)))
        fun _ => Leads.pure fun _ h => h
  refine Leads.bind htear fun _ => ?_
  rintro t ⟨hm, ht⟩
  rw [read_bind, show t.now = s.now from congrArg (fun m => m.2.2) hm]
  exact leads_duration _ (hmarks.duration hset hbody) t ht

end

/-! ## results -/

/-- The arguments of the `%s` conversions in `tr_str`, `tr_short_str` and `tap_lfun`,
but for constants. -/
def stringArgs (tr : TestResult) : List (Option CStr) :=
  [tr.file, trTypeStr tr, tr.tcname, tr.tname, tr.msg]

/-- The result has a place, and nothing that is printed of it is null. -/
structure Printable (tr : TestResult) : Prop where
  line : 0 ≤ tr.line.toInt
  strings : ∀ arg ∈ stringArgs tr, arg ≠ none

section

variable {tr : TestResult}

theorem Printable.file (h : Printable tr) : tr.file ≠ none := h.strings _ List.mem_cons_self

theorem TestResult.Classified.printable (h : tr.Classified) (hfile : tr.file.isSome)
    (hline : 0 ≤ tr.line.toInt) (htc : tr.tcname ≠ none) (ht : tr.tname ≠ none) : Printable tr := by
  refine ⟨hline, ?_⟩
  have htype : trTypeStr tr ≠ none := by
    unfold trTypeStr
    rcases h.1 with hr | hr | hr <;> simp only [hr] <;> split <;> exact Option.some_ne_none _
  simp only [stringArgs, List.forall_mem_cons]
  exact ⟨Option.isSome_iff_ne_none.mp hfile, htype, htc, ht, h.2, by simp⟩

end

section

variable {x : Ctx} {s s' : St List SendMsg NestedRun} {tr : TestResult} {r : RcvMsg}

theorem receiveTestResult_receiver {w : Bool} (hr : s.proc.receiver = some r)
    (h : receiveTestResult x w s = .ok tr s') :
    tr = constructTestResult r w ∧ r.Lined ∧ s' = s.onProc Proc.renew := by
  obtain ⟨f, hf, rfl⟩ := Option.map_eq_some_iff.mp hr
  rw [receiveTestResult_messages x hf] at h
  split at h
  · next hok =>
      cases h
      exact ⟨rfl, RcvMsg.lined_received hok.1, rfl⟩
  · cases h

/-- A known place has a line. -/
theorem RcvMsg.Lined.line (h : r.Lined) {w : Bool} (hfile : (constructTestResult r w).file.isSome) :
    0 ≤ (constructTestResult r w).line.toInt := by
  obtain ⟨hf, hl⟩ := RcvMsg.constructTestResult_file r w
  rw [hl]
  exact h _ (hf ▸ hfile)

theorem receiveResultInfoNofork_printable {tcname tname : CStr} {iter : Int} {duration : Int32}
    (hr : s.proc.receiver = some r) (hfile : (constructTestResult r false).file.isSome)
    (h : receiveResultInfoNofork x tcname tname iter duration s = .ok tr s') : Printable tr := by
  have hclass : tr.Classified := classified_receiveNofork ⟨s, s', h⟩
  obtain ⟨tr', s1, hrcv, h⟩ := bind_eq_ok.mp h
  obtain ⟨rfl, hlined, -⟩ := receiveTestResult_receiver hr hrcv
  cases h
  have hline := hlined.line hfile
  refine hclass.printable ?_ ?_ ?_ ?_
  all_goals
    unfold setNoforkInfo
    split <;> simp_all

theorem printable_setForkInfo (cfg : Config) (alarm : Bool) (hfile : tr.file.isSome)
    (hline : 0 ≤ tr.line.toInt) (htc : tr.tcname ≠ none) (ht : tr.tname ≠ none)
    (status : WaitStatus)
    (signal : Int) (allowed : Int8) :
    Printable (setForkInfo cfg alarm tr status signal allowed) := by
  obtain ⟨-, hf, hl⟩ := setForkInfo_frame cfg alarm tr status signal allowed
  obtain ⟨hn, hn', -⟩ := setForkInfo_names cfg alarm tr status signal allowed
  refine (classified_setForkInfo ..).printable ?_ ?_ ?_ ?_
  · rw [hf]
    exact hfile
  · rw [hl]
    exact hline
  · rw [hn]
    exact htc
  · rw [hn']
    exact ht

theorem receiveResultInfoFork_printable {tcname tname : CStr} {iter : Int} {status : WaitStatus}
    {signal : Int} {allowed : Int8} (hr : s.proc.receiver = some r)
    (hfile : (constructTestResult r (waserror status signal)).file.isSome)
    (h : receiveResultInfoFork x tcname tname iter status signal allowed s = .ok tr s') :
    Printable tr := by
  obtain ⟨tr', s1, hrcv, h⟩ := bind_eq_ok.mp h
  obtain ⟨rfl, hlined, -⟩ := receiveTestResult_receiver hr hrcv
  cases h
  refine printable_setForkInfo _ _ ?_ ?_ ?_ ?_ _ _ _
  · exact hfile
  · exact hlined.line hfile
  · exact Option.some_ne_none _
  · exact Option.some_ne_none _

/-- Without a failure that is waiting, nothing has failed. -/
theorem receiver_of_not_pending (h1 : s.proc.sendFile1.isSome) (hp : s.proc.pending = false) :
    ∃ r, s.proc.receiver = some r ∧ r.Calm := by
  obtain ⟨f, hf⟩ := Option.isSome_iff_exists.mp (Proc.isSome_getPipe h1)
  rw [Proc.pending, hf] at hp
  have hno : ∀ m ∈ f.content, ∀ t, m ≠ .fail t := by
    rintro m hm t rfl
    exact List.any_eq_false.mp hp _ hm rfl
  obtain ⟨c, hclean⟩ := RcvMsg.clean_rcvmsgCreate.received hno
  exact ⟨_, by rw [Proc.receiver, hf]; rfl, hclean.failctx, hclean.msg⟩

/-- A forked child and its end. -/
theorem forkChild_ok {p : RunM List SendMsg NestedRun Unit} {status : WaitStatus}
    (h : forkChild x p s = .ok status s') :
    ∃ e c, e.status? = some status ∧ s' = joinChild s c ∧
      ((p (s.onProc fun q => { q with killIn := x.env.kill s.now }) = .ok () c ∧ e = .exited 0) ∨
        p (s.onProc fun q => { q with killIn := x.env.kill s.now }) = .error e c) := by
  unfold forkChild at h
  split at h
  · next c hc =>
      cases h
      exact ⟨.exited 0, c, rfl, rfl, .inl ⟨hc, rfl⟩⟩
  · next code c hc =>
      cases h
      exact ⟨.exited code, c, rfl, rfl, .inr hc⟩
  · next sig c hc =>
      cases h
      exact ⟨.signaled sig, c, rfl, rfl, .inr hc⟩
  · cases h

/-- A forked test whose functions mark places. -/
theorem tcaseRunTfunFork_printable {tc : TCaseId} {tfun : TF NestedRun} {i : Int}
    (h1 : s.proc.sendFile1.isSome) (hp : s.proc.pending = false) (hkill : x.env.kill s.now = none)
    (hfork : forkStatusOf x.env s.sr.fstat = .fork)
    (hcalls : (testCode s.heap tc tfun i s.now).CallFree)
    (hmarks : (testCode s.heap tc tfun i s.now).Marks x.cfg (testDuration x s.now))
    (h : tcaseRunTfunFork x (runNested x) tc tfun i s = .ok tr s') : Printable tr := by
  obtain ⟨r, hr, hcalm⟩ := receiver_of_not_pending h1 hp
  obtain ⟨status, s1, hchild, h⟩ := bind_eq_ok.mp h
  obtain ⟨e, c, hstatus, rfl, hend⟩ := forkChild_ok hchild
  rw [hkill] at hend
  have hprocess : Leads (Amid s.memory (Knows (some s.proc) Calm)) _ _ _ :=
    leads_testProcess hfork hcalls hmarks
  have hleads := hprocess (s.onProc fun q => { q with killIn := none })
    ⟨rfl, fun p hp => by cases hp; exact ⟨rfl, rfl⟩, r, hr, hcalm⟩
  have hleft : Leaves (some s.proc) (Told tfun.signal e) c := by
    rcases hend with ⟨hend, rfl⟩ | hend <;> rw [hend] at hleads <;> exact hleads
  obtain ⟨r', hr', htold⟩ := hleft _ rfl
  rw [read_bind, update_bind, read_bind] at h
  exact receiveResultInfoFork_printable (s := (joinChild s c).onProc fun p =>
    { p with alarmReceived := x.env.alarm (joinChild s c).now }) hr' (htold status hstatus) h

end

/-! ## without forking -/

section

variable {x : Ctx} {Q : RcvMsg → Prop} (hQ : ∀ r m, Q r → Q (applyMsg r (SendMsg.seen m)))
  {m : Heap List NestedRun × SRunner List × When}
include hQ

/-- What no message changes. -/
theorem leads_sendMsg_stable (m : SendMsg) :
    Leads (Knows none Q) (fun _ => Knows none Q) (fun _ _ => True)
      (sendMsg x m : RunM List SendMsg NestedRun Unit) := by
  refine (leads_sendMsg m).weaken (fun _ h => h) (fun _ _ h => h.2.imp ?_) fun _ _ _ => trivial
  rintro r ⟨r0, h0, rfl⟩
  exact hQ r0 m h0

theorem leads_runFun_stable {acts : List (Act NestedRun)} (hcalls : NoCalls acts) :
    Leads (Knows none Q) (fun _ => Knows none Q) (fun _ _ => True)
      (runFun x (runNested x) acts) := by
  induction acts with
  | nil => exact Leads.pure fun s h => h
  | cons act acts ih =>
      have hcalls' : NoCalls acts := fun n hn => hcalls n (List.mem_cons_of_mem act hn)
      cases act with
      | markPoint loc => exact Leads.bind (leads_sendMsg_stable hQ _) fun _ => ih hcalls'
      | assertFailed loc expr msg =>
          refine Leads.bind (Leads.bind (leads_update
              (f := Proc.observe x.lvl (.assertFailed ⟨loc, expr, msg⟩)) (fun _ => rfl)
              (fun _ => rfl) fun _ => rfl) fun _ =>
            Leads.bind (leads_sendMsg_stable hQ _) fun _ =>
              Leads.bind (leads_sendMsg_stable hQ _) fun _ s hs => ?_) fun _ =>
            Leads.pure fun s h => h
          rw [read_bind]
          by_cases hf : s.proc.fstat = .fork
          · rw [if_pos (decide_eq_true hf)]
            trivial
          · rw [if_neg (by simp [hf]), read_bind]
            by_cases hj : s.proc.errorJmpBuffer = some x.lvl
            · rw [if_pos (decide_eq_true hj)]
              exact hs
            · rw [if_neg (by simp [hj])]
              trivial
      | exit status =>
          exact Leads.bind (leads_killPoint.stop fun _ _ _ => trivial) fun _ =>
            Leads.throw fun _ _ => trivial
      | raise sig => exact Leads.throw fun _ _ => trivial
      | call n => exact absurd List.mem_cons_self (hcalls n)

theorem leads_teardowns_stable (fl : FixtureList) {fs : List (Fixture NestedRun)}
    (hcalls : ∀ f ∈ fs, NoCalls (f.sfun.acts m.2.2)) :
    Leads (Amid m (Knows none Q)) (fun _ => Amid m (Knows none Q)) (fun _ _ => True)
      (fs.findSomeM? (runTeardown x (runNested x) fl .nofork)) := by
  induction fs with
  | nil => exact Leads.pure fun s h => h
  | cons f fs ih =>
      have hfixture : Leads (Amid m (Knows none Q)) (fun _ => Amid m (Knows none Q))
          (fun _ _ => True) (callFixture x (runNested x) fl f) := by
        refine Leads.keeping ((testClosed_memory (keeps_runNested x)).callFixture fl f) ?_
        rintro s ⟨rfl, hs⟩
        have hobs := leads_update (f := Proc.observe x.lvl (.fixture fl f.sfun.addr)) (fun _ => rfl)
          (fun _ => rfl) (fun _ => rfl) (E := fun _ _ => False) s hs
        rw [callFixture, update_bind, read_bind]
        exact leads_runFun_stable hQ (hcalls f List.mem_cons_self) _ hobs
      have hctx : Leads (Amid m (Knows none Q)) (fun _ => Amid m (Knows none Q)) (fun _ _ => True)
          (sendCtxInfo x .teardown) :=
        Leads.keeping (keeps_sendMsg x _) ((leads_sendMsg_stable hQ _).weaken (fun _ h => h.2)
          (fun _ _ h => h) fun _ _ h => h)
      have hbody : Leads (Amid m (Knows none Q)) (fun _ => Amid m (Knows none Q)) (fun _ _ => True)
          (runTeardown x (runNested x) fl .nofork f) := by
        rw [runTeardown, if_pos rfl]
        refine Leads.bind hctx fun _ => Leads.bind (leads_protect hfixture) fun b => ?_
        cases b <;> exact Leads.pure fun s h => h
      refine Leads.bind hbody fun b => ?_
      cases b with
      | some u => exact Leads.pure fun s h => h
      | none => exact ih fun g hg => hcalls g (List.mem_cons_of_mem f hg)

end

section

variable {x : Ctx} {s s' : St List SendMsg NestedRun} {tr : TestResult}

/-- A failure is waiting if the receiver would find one. -/
theorem pending_of_receiver {r : RcvMsg} (hr : s.proc.receiver = some r) :
    s.proc.pending = r.msg.isSome := by
  obtain ⟨f, hf, rfl⟩ := Option.map_eq_some_iff.mp hr
  rw [Proc.pending, hf, received_msg_isSome]

/-- The failure of a setup in the same process. -/
theorem runSetup_printable {fl : FixtureList} {tname sname : CStr} {f : Fixture NestedRun}
    (h1 : s.proc.sendFile1.isSome) (hp : s.proc.pending = false)
    (hcalls : NoCalls (f.sfun.acts s.now))
    (h : runSetup x (runNested x) fl .nofork tname sname f s = .ok (some tr) s') :
    Printable tr := by
  obtain ⟨r, hr, hcalm⟩ := receiver_of_not_pending h1 hp
  have hc : CkResultCtx.setup.Known := .inl rfl
  rw [runSetup, if_pos rfl] at h
  obtain ⟨_, s1, hctx, h⟩ := bind_eq_ok.mp h
  obtain ⟨b, s2, hcall, h⟩ := bind_eq_ok.mp h
  obtain ⟨tr', s3, hrcv, h⟩ := bind_eq_ok.mp h
  have hk1 : Knows none (Phase .setup False) s1 := by
    have hs : Knows none Calm s := ⟨by simp, r, hr, hcalm⟩
    refine ((leads_sendMsg _).of_ok hs hctx).2.imp ?_
    rintro r ⟨r0, h0, rfl⟩
    exact h0.ctx (by decide)
  have hm1 : s1.memory = s.memory := (keeps_sendMsg x _).of_ok hctx
  have hends := (leads_protect (leads_callFixture hc fl hcalls)).of_ok ⟨hm1, hk1⟩ hcall
  split at h
  · next hfail =>
      cases h
      obtain ⟨r2, hr2, h2⟩ : ∃ r2, s2.proc.receiver = some r2 ∧ Located r2 := by
        cases b with
        | true =>
            obtain ⟨r2, hr2, h2⟩ := Knows.receiver hends.2
            exact ⟨r2, hr2, h2.located (by decide)⟩
        | false =>
            -- a setup that returns has not failed
            obtain ⟨r2, hr2, h2⟩ := hends.2.2.receiver
            have hp2 := (receiveResultInfoNofork_pending hrcv).2.mp hfail
            rw [pending_of_receiver hr2, h2.calm.2] at hp2
            cases hp2
      exact receiveResultInfoNofork_printable hr2 (h2 false) hrcv
  · cases h

theorem findSomeM_runSetup_printable {fl : FixtureList} {tname sname : CStr}
    (fs : List (Fixture NestedRun)) (h1 : s.proc.sendFile1.isSome) (hp : s.proc.pending = false)
    (hcalls : ∀ f ∈ fs, NoCalls (f.sfun.acts s.now))
    (h : fs.findSomeM? (runSetup x (runNested x) fl .nofork tname sname) s = .ok (some tr) s') :
    Printable tr := by
  induction fs generalizing s with
  | nil => cases h
  | cons f fs ih =>
      obtain ⟨r1, s1, hf, h⟩ := bind_eq_ok.mp h
      cases r1 with
      | some tr' =>
          cases h
          exact runSetup_printable h1 hp (hcalls f List.mem_cons_self) hf
      | none =>
          have hsil := silent_runSetup hf
          refine ih (hsil.file1 h1) (runSetup_pending h1 hf).2 (fun g hg => ?_) h
          rw [hsil.now]
          exact hcalls g (List.mem_cons_of_mem f hg)

/-- A test in the same process. -/
theorem tcaseRunTfunNofork_printable {tc : TCaseId} {tfun : TF NestedRun} {i : Int}
    (h1 : s.proc.sendFile1.isSome) (hp : s.proc.pending = false)
    (hmode : forkStatusOf x.env s.sr.fstat = .nofork)
    (hcalls : (testCode s.heap tc tfun i s.now).CallFree)
    (h : tcaseRunTfunNofork x (runNested x) tc tfun i s = .ok tr s') : Printable tr := by
  obtain ⟨r, s1, hset, h⟩ := bind_eq_ok.mp h
  have hsil : Silent x s s1 := silent_of_closed (fun _ hP => hP.tcaseRunCheckedSetup tc) hset
  rw [tcaseRunCheckedSetup, srunnerForkStatus, read_bind, read_bind, hmode] at hset
  cases r with
  | some tr' =>
      cases h
      rw [srunnerRunSetup, if_neg (by decide)] at hset
      exact findSomeM_runSetup_printable (s.heap.lists
        (.fixtures .chSflst tc)) h1 hp hcalls.setups hset
  | none =>
      obtain ⟨b, s2, hcall, h⟩ := bind_eq_ok.mp h
      obtain ⟨_, s3, htear, h⟩ := bind_eq_ok.mp h
      rw [read_bind, read_bind] at h
      have hp1 : s1.proc.pending = false := by
        rw [(srunnerRunSetup_pending h1 hset).2, hp, Bool.and_false]
      obtain ⟨r, hr, hcalm⟩ := receiver_of_not_pending (hsil.file1 h1) hp1
      have hk1 : Knows none Calm s1 := ⟨by simp, r, hr, hcalm⟩
      have hends := (leads_protect (leads_callTest (m := s.memory) tfun i hcalls.body)).of_ok
        ⟨hsil.memory, hk1⟩ hcall
      have hfile : ∃ r3, s3.proc.receiver = some r3 ∧
          (constructTestResult r3 false).file.isSome := by
        obtain ⟨_, s4, hrun, htear⟩ := bind_eq_ok.mp htear
        cases htear
        cases b with
        | true =>
            have hstable : Leads (Amid s.memory (Knows none (Charged .test)))
                (fun _ => Amid s.memory (Knows none (Charged .test))) (fun _ _ => True)
                (forList x (.fixtures .chTflst tc)
                  (runTeardown x (runNested x) .chTflst .nofork)) :=
              leads_forList (leads_teardowns_stable (fun _ m hr => hr.apply m) .chTflst
                hcalls.teardowns)
            obtain ⟨r3, hr3, h3⟩ := (hstable.of_ok hends hrun).2.receiver
            exact ⟨r3, hr3, h3.located (by decide) false⟩
        | false =>
            have hbegun : Knows none (Begun True) s2 := hends.2.2.imp fun r hr => by
              have hr := hr.weaken Or.inl
              exact ⟨.test, .inl rfl, hr.place trivial, hr⟩
            have htears : Leads (Amid s.memory (Knows none (Begun True)))
                (fun _ => Amid s.memory (Knows none (TornDown x s.now True
                  (s.heap.lists (.fixtures .chTflst tc))))) _
                (forList x (.fixtures .chTflst tc)
                  (runTeardown x (runNested x) .chTflst .nofork)) :=
              leads_forList (leads_teardowns .chTflst 0 hcalls.teardowns)
            obtain ⟨r3, hr3, h3⟩ := (htears.of_ok ⟨hends.1, hbegun⟩ hrun).2.receiver
            refine ⟨r3, hr3, ?_⟩
            rcases h3 with h3 | ⟨-, h3⟩
            · exact h3.located (by decide) false
            · exact h3.file
      obtain ⟨r3, hr3, hfile⟩ := hfile
      exact receiveResultInfoNofork_printable hr3 hfile h

end

/-! ## where a run stops -/

/-- What has been recorded: results with a place and with texts to print, if `C`. -/
def AddsPrintable (C : Prop) (s s' : St List SendMsg NestedRun) : Prop :=
  ∃ rs, s'.sr.resultlst = s.sr.resultlst ++ rs ∧ (C → ∀ tr ∈ rs, Printable tr)

section

variable {x : Ctx} {C D : Prop} {s s' s'' : St List SendMsg NestedRun}

theorem AddsPrintable.of_eq (h : s'.sr.resultlst = s.sr.resultlst) : AddsPrintable C s s' :=
  ⟨[], by rw [h, List.append_nil], by simp⟩

theorem AddsPrintable.imp (h : AddsPrintable C s s') (hC : D → C) : AddsPrintable D s s' := by
  obtain ⟨rs, hrs, hprint⟩ := h
  exact ⟨rs, hrs, fun hD => hprint (hC hD)⟩

theorem AddsPrintable.trans (h : AddsPrintable C s s') (h' : AddsPrintable C s' s'') :
    AddsPrintable C s s'' := by
  obtain ⟨rs, hrs, hprint⟩ := h
  obtain ⟨rs', hrs', hprint'⟩ := h'
  refine ⟨rs ++ rs', by rw [hrs', hrs, List.append_assoc], fun hC => ?_⟩
  exact List.forall_mem_append.mpr ⟨hprint hC, hprint' hC⟩

theorem SparesResults.recorded {y : RunM List SendMsg NestedRun α} (h : SparesResults y) :
    Maintains (AddsPrintable C s) (fun _ => AddsPrintable C s) y := by
  intro t ht
  have hy := h t.sr.resultlst t rfl
  cases hr : y t with
  | ok a t' => exact ht.trans (.of_eq (by rw [hr] at hy; exact hy))
  | error e t' => exact ht.trans (.of_eq (by rw [hr] at hy; exact hy))

end

/-! ## test cases -/

section

variable {L : Type → Type} [Lists L] (heap : Heap L NestedRun)

/-- The functions of a test case make no calls back into the library. -/
structure CallFreeCase (tc : TCaseId) : Prop where
  fixtures : ∀ fl, ∀ f ∈ Lists.elems (heap.lists (.fixtures fl tc)), ∀ now,
    NoCalls (f.sfun.acts now)
  tests : ∀ tfun ∈ Lists.elems (heap.lists (.tflst tc)), ∀ i now, NoCalls (tfun.ttest.fn i now)

/-- The test case has nothing that receives a result. -/
def Deaf (tc : TCaseId) : Prop :=
  (Lists.elems (heap.lists (.fixtures .unchSflst tc))).isEmpty ∧ (iterations heap tc).isEmpty

instance (tc : TCaseId) : Decidable (Deaf heap tc) := inferInstanceAs (Decidable (_ ∧ _))

/-- A test case that begins while a failure is waiting has nothing to receive it; in `CK_FORK`
mode, the functions of a test that begins mark places. -/
def Start.Marks (x : Ctx) (mode : ForkStatus) : Start → Prop
  | .tcase _ waiting tc => waiting = true → Deaf heap tc
  | .test now tc tfun i =>
      mode = .fork → (testCode heap tc tfun i now).Marks x.cfg (testDuration x now)

variable {heap}

theorem CallFreeCase.test {tc : TCaseId} (h : CallFreeCase heap tc) {tfun : TF NestedRun}
    (htfun : tfun ∈ Lists.elems (heap.lists (.tflst tc))) (i : Int) (now : When) :
    (testCode heap tc tfun i now).CallFree where
  setups f hf := h.fixtures .chSflst f hf now
  body := h.tests tfun htfun i now
  teardowns f hf := h.fixtures .chTflst f hf now

end

section

variable {x : Ctx} {H : Heap List NestedRun} {mode : ForkStatus} {tc : TCaseId}
  {s s' : St List SendMsg NestedRun}

/-- The result of a test, in either mode. -/
theorem tcaseRunTfun_printable {tfun : TF NestedRun} {i : Int} {tr : TestResult}
    (hkill : ∀ now, x.env.kill now = none) (hm : Midrun x H mode s) (hp : s.proc.pending = false)
    (hcalls : (testCode H tc tfun i s.now).CallFree)
    (hmarks : (Start.test s.now tc tfun i).Marks H x mode)
    (h : tcaseRunTfun x (runNested x) tc tfun i s = .ok tr s') : Printable tr := by
  have hheap := hm.heap
  subst hheap
  rw [tcaseRunTfun, srunnerForkStatus, read_bind, hm.mode] at h
  cases mode with
  | getenv => cases h
  | fork => exact tcaseRunTfunFork_printable hm.file1 hp (hkill _) hm.mode hcalls (hmarks rfl) h
  | nofork => exact tcaseRunTfunNofork_printable hm.file1 hp hm.mode hcalls h

/-- What has begun from `s` to `s'`, and what has been recorded: results with a place and with
texts to print, if `C`. -/
structure Begins (x : Ctx) (sts : List Start) (C : Prop) (s s' : St List SendMsg NestedRun) :
    Prop where
  begun : begun x.lvl s'.proc.hist = begun x.lvl s.proc.hist ++ sts.map Start.obs
  results : AddsPrintable C s s'

section

variable {C D : Prop} {sts sts' : List Start} {s'' : St List SendMsg NestedRun}

theorem Begins.imp (h : Begins x sts C s s') (hC : D → C) : Begins x sts D s s' :=
  ⟨h.begun, h.results.imp hC⟩

theorem Begins.trans (h : Begins x sts C s s') (h' : Begins x sts' C s' s'') :
    Begins x (sts ++ sts') C s s'' :=
  ⟨by rw [h'.begun, h.begun, List.map_append, List.append_assoc], h.results.trans h'.results⟩

/-- Nothing has begun and nothing has been recorded. -/
theorem Begins.nil (hb : LibCheck.begun x.lvl s'.proc.hist = LibCheck.begun x.lvl s.proc.hist)
    (hr : s'.sr.resultlst = s.sr.resultlst) : Begins x [] C s s' :=
  ⟨hb.trans (List.append_nil _).symm, .of_eq hr⟩

/-- What is left begins nothing and records nothing. -/
theorem Begins.rest {y : RunM List SendMsg NestedRun α} {s0 : St List SendMsg NestedRun}
    (h : Begins x sts C s0 s) (s' : St List SendMsg NestedRun) (hhist : s'.proc.hist = s.proc.hist)
    (hr : s'.sr.resultlst = s.sr.resultlst) (hy : Unseen x Obs.start? y)
    (hspares : SparesResults y) :
    Begins x sts C s0 (endState (y s')) where
  begun := by
    have hend : LibCheck.begun x.lvl (endState (y s')).proc.hist =
        LibCheck.begun x.lvl s'.proc.hist :=
      hy.endState s'
    rw [hend, hhist]
    exact h.begun
  results := Maintains.endState hspares.recorded (h.results.trans (.of_eq hr)) (fun _ h => h)
    fun _ _ h => h

end

/-- The iterations begin without a failure that is waiting, and mark their places. -/
def IterMarks (x : Ctx) (H : Heap List NestedRun) (mode : ForkStatus) (tc : TCaseId)
    (s : St List SendMsg NestedRun) (ts : List (TF NestedRun × Int)) : Prop :=
  (s.proc.pending = true → ts = []) ∧ ∀ st ∈ testStarts tc s.now ts, st.Marks H x mode

/-- What the iterations of a test case record. -/
structure IterPrinted (x : Ctx) (H : Heap List NestedRun) (mode : ForkStatus) (tc : TCaseId)
    (s : St List SendMsg NestedRun) (ts : List (TF NestedRun × Int))
    (s' : St List SendMsg NestedRun) : Prop where
  now : s'.now = { s.now with test := s.now.test + ts.length }
  pending : s'.proc.pending = (ts.isEmpty && s.proc.pending)
  begins : Begins x (testStarts tc s.now ts) (IterMarks x H mode tc s ts) s s'

/-- What they have recorded where they are stopped: the first ones have begun. -/
def IterStopped (x : Ctx) (H : Heap List NestedRun) (mode : ForkStatus) (tc : TCaseId)
    (s : St List SendMsg NestedRun) (ts : List (TF NestedRun × Int))
    (s' : St List SendMsg NestedRun) : Prop :=
  ∃ ts', ts' <+: ts ∧ Begins x (testStarts tc s.now ts') (IterMarks x H mode tc s ts') s s'

section

variable {ts ts' : List (TF NestedRun × Int)}

theorem IterMarks.left (h : IterMarks x H mode tc s (ts ++ ts')) : IterMarks x H mode tc s ts := by
  have hstarts := h.2
  rw [testStarts_append, List.forall_mem_append] at hstarts
  exact ⟨fun hp => (List.append_eq_nil_iff.mp (h.1 hp)).1, hstarts.1⟩

theorem IterPrinted.right (hP : IterPrinted x H mode tc s ts s')
    (h : IterMarks x H mode tc s (ts ++ ts')) : IterMarks x H mode tc s' ts' := by
  have hstarts := h.2
  rw [testStarts_append, List.forall_mem_append, ← hP.now] at hstarts
  refine ⟨fun hp => ?_, hstarts.2⟩
  rw [hP.pending, Bool.and_eq_true] at hp
  exact (List.append_eq_nil_iff.mp (h.1 hp.2)).2

theorem IterPrinted.append {s'' : St List SendMsg NestedRun} (hP : IterPrinted x H mode tc s ts s')
    (h : Begins x (testStarts tc s'.now ts') (IterMarks x H mode tc s' ts') s' s'') :
    Begins x (testStarts tc s.now (ts ++ ts')) (IterMarks x H mode tc s (ts ++ ts')) s s'' := by
  have hall := (hP.begins.imp IterMarks.left).trans (h.imp hP.right)
  rw [testStarts_append, ← hP.now]
  exact hall

end

theorem composes_iterPrinted : Composes (IterPrinted x H mode tc) where
  refl s := ⟨rfl, by simp, .nil rfl rfl⟩
  trans := by
    intro s s' s'' ts ts' h h'
    refine ⟨?_, ?_, h.append h'.begins⟩
    · rw [h'.now, h.now, List.length_append, Nat.add_assoc]
    · rw [h'.pending, h.pending]
      cases ts <;> cases ts' <;> simp

theorem interrupts_iterPrinted :
    Interrupts (IterPrinted x H mode tc) (IterStopped x H mode tc) where
  early := by
    rintro s s' ts ts' ⟨ts₁, hpre, hb⟩
    exact ⟨ts₁, hpre.trans (List.prefix_append ts ts'), hb⟩
  late := by
    rintro s s' s'' ts ts' hP ⟨ts₁, hpre, hb⟩
    exact ⟨ts ++ ts₁, (List.prefix_append_right_inj ts).mpr hpre, hP.append hb⟩

variable (hkill : ∀ now, x.env.kill now = none) (hnd : ((H.lists .loglst).map Log.lfun).Nodup)
  (hcalls : CallFreeCase H tc)
include hkill hcalls

/-- The result that an iteration records. -/
theorem runIteration_printable {tfun : TF NestedRun} (htfun : tfun ∈ H.lists (.tflst tc)) {i : Int}
    {s1 s2 : St List SendMsg NestedRun} {tr : TestResult} (hm : Midrun x H mode s)
    (hstart : logTestStart x tc tfun (St.onProc (Proc.observe x.lvl (.iter tc tfun.ttest.name i))
      { s with now := { s.now with test := s.now.test + 1 } }) = .ok () s1)
    (htest : tcaseRunTfun x (runNested x) tc tfun i s1 = .ok tr s2)
    (hmarks : IterMarks x H mode tc s [(tfun, i)]) : Printable tr := by
  have hm0 : Midrun x H mode (St.onProc (Proc.observe x.lvl (.iter tc tfun.ttest.name i))
      { s with now := { s.now with test := s.now.test + 1 } }) := ⟨hm.heap, hm.file1, hm.mode⟩
  rw [logTestStart, read_bind] at hstart
  obtain ⟨hm1, hnow1, hp1⟩ := srunnerSendEvt_frame hm0 hstart
  have hnow1 : s1.now = { s.now with test := s.now.test + 1 } := hnow1
  have hp : s.proc.pending = false := Bool.eq_false_iff.mpr fun hp =>
      List.cons_ne_nil _ _ (hmarks.1 hp)
  have hunit := hmarks.2 _ List.mem_cons_self
  rw [← hnow1] at hunit
  exact tcaseRunTfun_printable hkill hm1 (hp1.trans hp) (hcalls.test htfun i _) hunit htest

omit hkill hcalls in
/-- What an iteration has recorded when it tells the loggers of its end. -/
theorem runIteration_results {tfun : TF NestedRun} {i : Int} {s1 s2 s3 : St List SendMsg NestedRun}
    {tr : TestResult}
    (hstart : logTestStart x tc tfun (St.onProc (Proc.observe x.lvl (.iter tc tfun.ttest.name i))
      { s with now := { s.now with test := s.now.test + 1 } }) = .ok () s1)
    (htest : tcaseRunTfun x (runNested x) tc tfun i s1 = .ok tr s2)
    (hadd : srunnerAddFailure tr s2 = .ok () s3) :
    s3.sr.resultlst = s.sr.resultlst ++ [tr] := by
  rw [logTestStart, read_bind] at hstart
  have hsr1 : s1.sr = s.sr := by
    obtain ⟨-, -, rfl⟩ := srunnerSendEvt_ok hstart
    rfl
  have hsr2 : s2.sr = s1.sr := (silent_of_closed (fun _ hP => hP.tcaseRunTfun tc tfun i) htest).sr
  cases hadd
  rw [← hsr1, ← hsr2]
  rfl

include hnd in
theorem walks_runIteration {tfun : TF NestedRun} (htfun : tfun ∈ H.lists (.tflst tc)) (i : Int) :
    Walks (Midrun x H mode) (IterPrinted x H mode tc) (IterStopped x H mode tc) [(tfun, i)]
      (runIteration x (runNested x) tc tfun i) := by
  refine Walks.of_cases (fun s u s' hm h => ?_) fun s e s' hm h => ?_
  · obtain ⟨hm', hnow, hp, -⟩ := does_runIteration rfl hnd tfun i s u s' hm h
    have hbegun := begun_runIteration (x := x) tc tfun i s
    rw [h] at hbegun
    refine ⟨hm', hnow, hp, hbegun, ?_⟩
    rw [runIteration, update_bind, update_bind] at h
    obtain ⟨_, s1, hstart, h⟩ := bind_eq_ok.mp h
    obtain ⟨tr, s2, htest, h⟩ := bind_eq_ok.mp h
    obtain ⟨_, s3, hadd, hend⟩ := bind_eq_ok.mp h
    have hsr' : s'.sr = s3.sr := by
      obtain ⟨-, -, rfl⟩ := srunnerSendEvt_ok hend
      rfl
    refine ⟨[tr], by rw [hsr', runIteration_results hstart htest hadd], fun hmarks => ?_⟩
    exact List.forall_mem_singleton.mpr
      (runIteration_printable hkill hcalls htfun hm hstart htest hmarks)
  · have hbegun := begun_runIteration (x := x) tc tfun i s
    rw [h] at hbegun
    refine ⟨[(tfun, i)], List.prefix_rfl, hbegun, ?_⟩
    rw [runIteration, update_bind, update_bind] at h
    obtain hstart | ⟨_, s1, hstart, h⟩ := bind_eq_error.mp h
    · rw [logTestStart, read_bind] at hstart
      have hsr' := (sparesResults_srunnerSendEvt _ _).of_error hstart
      exact .of_eq hsr'
    obtain htest | ⟨tr, s2, htest, h⟩ := bind_eq_error.mp h
    · rw [logTestStart, read_bind] at hstart
      have hsr1 := (sparesResults_srunnerSendEvt _ _).of_ok hstart
      have hsr' := (testClosed_results.tcaseRunTfun tc tfun i).of_error htest
      exact .of_eq (hsr'.trans hsr1)
    obtain hadd | ⟨_, s3, hadd, hend⟩ := bind_eq_error.mp h
    · cases hadd
    have hsr' := (sparesResults_srunnerSendEvt _ _).of_error hend
    refine ⟨[tr], by rw [hsr', runIteration_results hstart htest hadd], fun hmarks => ?_⟩
    exact List.forall_mem_singleton.mpr
      (runIteration_printable hkill hcalls htfun hm hstart htest hmarks)

omit hkill hnd in
/-- The unchecked setups of a test case record at most one result. -/
theorem srunnerRunUncheckedSetup_printed {b : Bool} (hm : Midrun x H mode s)
    (h : srunnerRunUncheckedSetup x (runNested x) tc s = .ok b s') :
    ∃ rs, s'.sr.resultlst = s.sr.resultlst ++ rs ∧ (b = true → rs = []) ∧
      (s.proc.pending = false → ∀ tr ∈ rs, Printable tr) := by
  rw [srunnerRunUncheckedSetup, setForkStatus, update_bind, read_bind] at h
  obtain ⟨r, s1, hset, h⟩ := bind_eq_ok.mp h
  rw [srunnerForkStatus, read_bind, setForkStatus, update_bind] at h
  have hsil0 := silent_fstat x .nofork s
  have hp0 : (s.onProc fun p => { p with fstat := .nofork }).proc.pending = s.proc.pending :=
    Proc.pending_of_getPipe rfl
  generalize (s.onProc fun p => { p with fstat := .nofork }) = s0 at hset hsil0 hp0
  have hm0 := hm.of_silent hsil0
  have hsil1 : Silent x s0 s1 := silent_of_closed (fun _ hP => hP.srunnerRunSetup _ _ _ _ _) hset
  have hsr1 : s1.sr = s.sr := hsil1.sr.trans hsil0.sr
  cases r with
  | none =>
      cases h
      exact ⟨[], by rw [List.append_nil]; exact congrArg SRunner.resultlst hsr1,
        fun _ => rfl, by simp⟩
  | some tr =>
      have hrtype : tr.rtype ≠ .pass := by
        rw [(srunnerRunSetup_some hset).1]
        decide
      simp only [if_pos hrtype] at h
      obtain ⟨_, s3, hadd, h⟩ := bind_eq_ok.mp h
      cases hadd
      cases h
      refine ⟨[tr], by rw [← hsr1]; rfl, by simp, fun hnone => ?_⟩
      rw [srunnerRunSetup, if_neg (by decide)] at hset
      refine List.forall_mem_singleton.mpr (findSomeM_runSetup_printable
        (s0.heap.lists (.fixtures .unchSflst tc)) hm0.file1 (hp0.trans hnone) (fun f hf => ?_) hset)
      rw [hm0.heap] at hf
      exact hcalls.fixtures .unchSflst f hf _

/-- What a test case has begun and recorded when it ends, at `whole` or earlier: without a failure
that is waiting, or with nothing that receives it, its results have places. -/
def CaseStopped (x : Ctx) (H : Heap List NestedRun) (mode : ForkStatus) (tc : TCaseId)
    (whole : List Start) (s : St List SendMsg NestedRun)
    (r : EStateM.Result Stop (St List SendMsg NestedRun) Unit) :
    Prop :=
  ∃ sts, sts <+: whole ∧ ((∃ u t, r = .ok u t) → sts = whole) ∧
    Begins x sts ((s.proc.pending = true → Deaf H tc) ∧ ∀ st ∈ sts, st.Marks H x mode) s
      (endState r)

include hnd in
/-- A test case, after its unchecked setups. -/
theorem runTcase_begins {k : Nat} (hm : Midrun x H mode s) (hk : s.now = ⟨k, 0⟩) :
    CaseStopped x H mode tc
      (if abandoned H k s.proc.pending tc then [] else testStarts tc ⟨k, 0⟩ (iterations H tc)) s
      (runTcase x (runNested x) tc s) := by
  have hunseen := unseen_srunnerRunUncheckedSetup (x := x) start?_of_isUser tc
  rw [runTcase, bind_apply]
  cases hset : srunnerRunUncheckedSetup x (runNested x) tc s with
  | error e s1 =>
      have hbegun : begun x.lvl s1.proc.hist = begun x.lvl s.proc.hist := hunseen.of_error hset
      refine ⟨[], List.nil_prefix, fun h => ?_, .nil hbegun (srunnerRunUncheckedSetup_error hset)⟩
      obtain ⟨_, _, h⟩ := h
      cases h
  | ok b s1 =>
      obtain ⟨⟨hm1, hnow1⟩, hb, hp1, -⟩ :=
        srunnerRunUncheckedSetup_ok (H.lists .loglst) hm hk hset
      obtain ⟨rs, hrs, hnil, hprint⟩ := srunnerRunUncheckedSetup_printed hcalls hm hset
      have hbegun1 : begun x.lvl s1.proc.hist = begun x.lvl s.proc.hist := hunseen.of_ok hset
      cases b with
      | false =>
          have hab : abandoned H k s.proc.pending tc = true := by simpa using hb
          rw [hab, if_pos rfl]
          refine ⟨[], List.prefix_rfl, fun _ => rfl, hbegun1.trans
            (List.append_nil _).symm, rs, hrs,
            fun hmarks => hprint (Bool.eq_false_iff.mpr fun hp => ?_)⟩
          -- a test case without setups is not abandoned
          have hfs : H.lists (.fixtures .unchSflst tc) = [] := List.isEmpty_iff.mp (hmarks.1 hp).1
          simp [abandoned, fixturesFail, Lists.elems, hfs] at hb
      | true =>
          cases hnil rfl
          have hab : abandoned H k s.proc.pending tc = false := by simpa using hb
          have hsetup : Begins x [] ((s.proc.pending = true → Deaf H tc) ∧
              ∀ st ∈ ([] : List Start), st.Marks H x mode) s s1 :=
            .nil hbegun1 (hrs.trans (List.append_nil _))
          have hnow1 : s1.now = ⟨k, 0⟩ := hnow1.trans hk
          rw [hab, if_neg Bool.false_ne_true]
          have hwalks : Walks (Midrun x H mode) (IterPrinted x H mode tc) (IterStopped x H mode tc)
              (iterations H tc) (srunnerIterateTcaseTfuns x (runNested x) tc) :=
            does_iterations (Walks.sequences composes_iterPrinted interrupts_iterPrinted)
              (fun _ hm => hm.heap) fun _ htfun i => walks_runIteration hkill hnd hcalls htfun i
          -- the first iterations of the test case
          have hmarks : ∀ ts, ts <+: iterations H tc →
              ((s.proc.pending = true → Deaf H tc) ∧
                ∀ st ∈ testStarts tc s1.now ts, st.Marks H x mode) →
                  IterMarks x H mode tc s1 ts := by
            rintro ts hts ⟨hdeaf, hstarts⟩
            refine ⟨fun hp => ?_, hstarts⟩
            rw [hp1, Bool.and_eq_true] at hp
            exact List.prefix_nil.mp (List.isEmpty_iff.mp (hdeaf hp.2).2 ▸ hts)
          simp only [if_true]
          rw [bind_apply, ← hnow1]
          cases hiter : srunnerIterateTcaseTfuns x (runNested x) tc s1 with
          | error e s2 =>
              obtain ⟨ts, hts, hb⟩ := hwalks.of_error hm1 hiter
              refine ⟨testStarts tc s1.now ts, ?_, fun h => ?_,
                (hsetup.imp fun h => ⟨h.1, by simp⟩).trans (hb.imp (hmarks ts hts))⟩
              · obtain ⟨ts', happend⟩ := hts
                rw [← happend, testStarts_append]
                exact List.prefix_append _ _
              · obtain ⟨_, _, h⟩ := h
                cases h
          | ok _ s2 =>
              have hb := (hwalks.of_ok hm1 hiter).2.begins.imp (hmarks _ List.prefix_rfl)
              have hspares := sparesResults_srunnerRunUncheckedTeardown (x := x) tc
              have hteardown := unseen_srunnerRunUncheckedTeardown (x := x) start?_of_isUser tc
              exact ⟨testStarts tc s1.now (iterations H tc), List.prefix_rfl, fun _ => rfl,
                ((hsetup.imp fun h => ⟨h.1, by simp⟩).trans hb).rest
                  { s2 with now := { s2.now with test := 0 } } rfl rfl hteardown hspares⟩

end

/-! ## runs -/

/-- The test cases and tests that begin mark their places. -/
def AllMark {L : Type → Type} [Lists L] (x : Ctx) (H : Heap L NestedRun) (mode : ForkStatus)
    (sts : List Start) : Prop :=
  ∀ st ∈ sts, st.Marks H x mode

/-- What the steps of a plan begin and record. -/
structure PlanPrinted (x : Ctx) (H : Heap List NestedRun) (mode : ForkStatus)
    (s : St List SendMsg NestedRun) (ks : List RunStep)
    (s' : St List SendMsg NestedRun) : Prop where
  carried : (s'.now.tcrun, s'.proc.pending) = ks.foldl (carry H) (s.now.tcrun, s.proc.pending)
  begins : Begins x (planStarts H (s.now.tcrun, s.proc.pending) ks)
    (AllMark x H mode (planStarts H (s.now.tcrun, s.proc.pending) ks)) s s'

/-- What they begin and record where they are stopped. -/
def PlanStopped (x : Ctx) (H : Heap List NestedRun) (mode : ForkStatus)
    (s : St List SendMsg NestedRun) (ks : List RunStep) (s' : St List SendMsg NestedRun) : Prop :=
  ∃ sts, sts <+: planStarts H (s.now.tcrun, s.proc.pending) ks ∧
    Begins x sts (AllMark x H mode sts) s s'

section

variable {x : Ctx} {H : Heap List NestedRun} {mode : ForkStatus}

theorem Begins.append {sts sts' : List Start} {s s' s'' : St List SendMsg NestedRun}
    (h : Begins x sts (AllMark x H mode sts) s s')
    (h' : Begins x sts' (AllMark x H mode sts') s' s'') :
    Begins x (sts ++ sts') (AllMark x H mode (sts ++ sts')) s s'' :=
  (h.imp fun hall st hst => hall st (List.mem_append_left _ hst)).trans
    (h'.imp fun hall st hst => hall st (List.mem_append_right _ hst))

theorem composes_planPrinted : Composes (PlanPrinted x H mode) where
  refl s := ⟨rfl, .nil rfl rfl⟩
  trans := by
    intro s s' s'' ks ks' h h'
    refine ⟨by rw [h'.carried, h.carried, List.foldl_append], ?_⟩
    have hall := h.begins.append h'.begins
    rw [h.carried, ← planStarts_append] at hall
    exact hall

theorem interrupts_planPrinted : Interrupts (PlanPrinted x H mode) (PlanStopped x H mode) where
  early := by
    rintro s s' ks ks' ⟨sts, hpre, hb⟩
    refine ⟨sts, hpre.trans ?_, hb⟩
    rw [planStarts_append]
    exact List.prefix_append _ _
  late := by
    rintro s s' s'' ks ks' hP ⟨sts, hpre, hb⟩
    rw [hP.carried] at hpre
    refine ⟨_ ++ sts, ?_, hP.begins.append hb⟩
    rw [planStarts_append]
    exact (List.prefix_append_right_inj _).mpr hpre

/-- An event begins nothing and records nothing. -/
theorem walks_sendEvt {evt : ClEvent} {obj : LogObj} {step : RunStep}
    (hcarry : ∀ c, carry H c step = c) (hstarts : ∀ c, planStarts H c [step] = []) :
    Walks (Midrun x H mode) (PlanPrinted x H mode) (PlanStopped x H mode) [step]
      (srunnerSendEvt x obj evt : RunM List SendMsg NestedRun Unit) := by
  have hunseen := unseen_event (x := x) obj evt
  refine Walks.of_cases (fun s u s' hm h => ?_) fun s e s' hm h => ?_
  · obtain ⟨hm', hnow, hp⟩ := srunnerSendEvt_frame hm h
    have hbegun : begun x.lvl s'.proc.hist = begun x.lvl s.proc.hist := hunseen.of_ok h
    refine ⟨hm', ?_, ?_⟩
    · rw [hnow, hp, List.foldl_cons, hcarry, List.foldl_nil]
    · rw [hstarts]
      exact .nil hbegun ((sparesResults_srunnerSendEvt _ _).of_ok h)
  · have hbegun : begun x.lvl s'.proc.hist = begun x.lvl s.proc.hist := hunseen.of_error h
    exact ⟨[], List.nil_prefix, .nil hbegun ((sparesResults_srunnerSendEvt _ _).of_error h)⟩

theorem planStarts_tcase (c : Nat × Bool) (tc : TCaseId) :
    planStarts H c [.tcase tc] = caseStarts H (c.1 + 1, c.2, tc) :=
  List.flatMap_singleton _ _

theorem walks_srunnerRunTcase {tc : TCaseId} (hkill : ∀ now, x.env.kill now = none)
    (hnd : ((H.lists .loglst).map Log.lfun).Nodup) (hcalls : CallFreeCase H tc) :
    Walks (Midrun x H mode) (PlanPrinted x H mode) (PlanStopped x H mode)
      [.tcase tc] (srunnerRunTcase x (runNested x) tc) := by
  have hcase : ∀ s, Midrun x H mode s →
      ∃ sts, sts <+: caseStarts H (s.now.tcrun + 1, s.proc.pending, tc) ∧
        ((∃ u t, srunnerRunTcase x (runNested x) tc s = .ok u t) →
          sts = caseStarts H (s.now.tcrun + 1, s.proc.pending, tc)) ∧
        Begins x sts (AllMark x H mode sts) s
          (endState (srunnerRunTcase x (runNested x) tc s)) := by
    intro s hm
    rw [srunnerRunTcase, update_bind, update_bind]
    have hm0 : Midrun x H mode (St.onProc (Proc.observe x.lvl (.tcase tc))
        { s with now := ⟨s.now.tcrun + 1, 0⟩ }) := ⟨hm.heap, hm.file1, hm.mode⟩
    obtain ⟨sts, hpre, hwhole, hb⟩ := runTcase_begins hkill hnd hcalls hm0 rfl
    refine ⟨.tcase (s.now.tcrun + 1) s.proc.pending tc :: sts,
      (List.prefix_append_right_inj [_]).mpr hpre, fun hok =>
        congrArg (_ :: ·) (hwhole hok), ?_, ?_⟩
    · rw [hb.begun, begun_observe]
      exact List.append_assoc ..
    · refine AddsPrintable.trans (.of_eq rfl) (hb.results.imp fun hall => ?_)
      exact ⟨hall _ List.mem_cons_self, fun st hst => hall st (List.mem_cons_of_mem _ hst)⟩
  refine Walks.of_cases (fun s u s' hm h => ?_) fun s e s' hm h => ?_
  · obtain ⟨hm', hran⟩ := does_srunnerRunTcase rfl hnd s u s' hm h
    obtain ⟨sts, -, hwhole, hb⟩ := hcase s hm
    cases hwhole ⟨u, s', h⟩
    rw [h] at hb
    refine ⟨hm', hran.carried, ?_⟩
    rw [planStarts_tcase]
    exact hb
  · obtain ⟨sts, hpre, -, hb⟩ := hcase s hm
    rw [h] at hb
    rw [← planStarts_tcase (s.now.tcrun, s.proc.pending)] at hpre
    exact ⟨sts, hpre, hb⟩

end

namespace SameCases

variable {L L' : Type → Type} [Lists L] [Lists L'] {H : Heap L NestedRun} {K : Heap L' NestedRun}
  (h : SameCases H K)
include h

theorem callFreeCase {tc : TCaseId} (hc : CallFreeCase H tc) : CallFreeCase K tc where
  fixtures fl := by
    rw [h.fixtures]
    exact hc.fixtures fl
  tests := by
    rw [h.tflst]
    exact hc.tests

theorem marks {x : Ctx} {mode : ForkStatus} {st : Start} (hst : st.Marks H x mode) :
    st.Marks K x mode := by
  cases st with
  | tcase k waiting tc =>
      intro hw
      rw [Deaf, h.fixtures, h.iterations]
      exact hst hw
  | test now tc tfun i =>
      have hcode : testCode K tc tfun i now = testCode H tc tfun i now := by
        simp only [testCode, h.fixtures]
      simp only [Start.Marks, hcode]
      exact hst

end SameCases

/-- What a run has begun and recorded when it ends: test cases and tests of `whole`, in their
order, with results that have places. -/
def RunBegins (x : Ctx) (H : Heap List NestedRun) (mode : ForkStatus) (whole : List Start)
    (s s' : St List SendMsg NestedRun) : Prop :=
  ∃ sts, sts <+: whole ∧ Begins x sts (AllMark x H mode sts) s s'

theorem RunBegins.rest {x : Ctx} {H : Heap List NestedRun} {mode : ForkStatus} {whole : List Start}
    {s s' : St List SendMsg NestedRun} {y : RunM List SendMsg NestedRun α}
    (h : RunBegins x H mode whole s s') (hy : Unseen x Obs.start? y) (hspares : SparesResults y) :
    RunBegins x H mode whole s (endState (y s')) := by
  obtain ⟨sts, hpre, hb⟩ := h
  exact ⟨sts, hpre, hb.rest _ rfl rfl hy hspares⟩

/-- The suites of a run of the abstract machine. -/
theorem srunnerIterateSuites_begins {x : Ctx} {s s1 : St List SendMsg NestedRun} {a : RunArgs}
    {tags : TCaseId → Option CStr} 
    (htags : ∀ tc, s.heap.lists (.tags tc) = tagStringToList (tags tc))
    (hkill : ∀ now, x.env.kill now = none)
    (hcalls : ∀ tc, .tcase tc ∈ plan (effectiveArgs x.env a) s.heap tags → CallFreeCase s.heap tc)
    (henter : EntersSuites x a s s1) :
    RunBegins x s.heap (forkStatusOf x.env s.sr.fstat)
      (planStarts s.heap (s.now.tcrun, false) (plan (effectiveArgs x.env a) s.heap tags)) s
      (endState (srunnerIterateSuites x (runNested x) (effectiveArgs x.env a) s1)) := by
  generalize effectiveArgs x.env a = b at *
  have hsame : SameCases s.heap (loadTags b s1).heap := henter.cases.loadTags b
  have hlgs : (loadTags b s1).heap.lists .loglst = registered x s.sr a.printMode :=
    (lists_loadTags (r := .loglst) (fun _ he => nomatch he) b s1).trans henter.loggers
  have hmode : forkStatusOf x.env s1.sr.fstat = forkStatusOf x.env s.sr.fstat := by
    rw [henter.runner]
  have hwalks := does_suites (Walks.sequences composes_planPrinted interrupts_planPrinted)
    (I := Midrun x (loadTags b s1).heap (forkStatusOf x.env s.sr.fstat)) (fun _ hm => hm.heap)
    (tagged_loadTags (henter.tags htags))
    (fun su => by
      unfold logSuiteStart
      exact fun s hs => walks_sendEvt (fun _ => rfl) (fun _ => rfl) s hs)
    (fun su => by
      unfold logSuiteEnd
      exact fun s hs => walks_sendEvt (fun _ => rfl) (fun _ => rfl) s hs)
    fun tc htc => walks_srunnerRunTcase hkill (hlgs ▸ nodup_registered x s.sr a.printMode)
      (hsame.callFreeCase (hcalls tc (hsame.plan b tags ▸ htc)))
  have hm : Midrun x (loadTags b s1).heap (forkStatusOf x.env s.sr.fstat) (loadTags b s1) :=
    ⟨rfl, henter.file1, hmode⟩
  have hc : ((loadTags b s1).now.tcrun, (loadTags b s1).proc.pending) = (s.now.tcrun, false) :=
    congrArg₂ Prod.mk (congrArg When.tcrun henter.now) henter.pending
  have hbegun : begun x.lvl (loadTags b s1).proc.hist = begun x.lvl s.proc.hist := by
    refine henter.seen Obs.start? fun _ _ => rfl
  have hresults : (loadTags b s1).sr.resultlst = s.sr.resultlst := by
    show s1.sr.resultlst = s.sr.resultlst
    rw [henter.runner]
  have hstopped : ∀ t, PlanStopped x (loadTags b s1).heap (forkStatusOf x.env s.sr.fstat)
      (loadTags b s1) (plan b (loadTags b s1).heap tags) t →
        RunBegins x s.heap (forkStatusOf x.env s.sr.fstat)
          (planStarts s.heap (s.now.tcrun, false) (plan b s.heap tags)) s t := by
    rintro t ⟨sts, hpre, hb⟩
    rw [hc, hsame.plan, hsame.planStarts] at hpre
    exact ⟨sts, hpre, hb.begun.trans (congrArg (· ++ _) hbegun),
      AddsPrintable.trans (.of_eq hresults)
        (hb.results.imp fun hall st hst => hsame.marks (hall st hst))⟩
  rw [srunnerIterateSuites_apply]
  cases hrun : forList x .slst (fun su => do
      iterateSuite x (runNested x) b su
      pure (none : Option Unit)) (loadTags b s1) with
  | error e t => exact hstopped t (hwalks.of_error hm hrun)
  | ok u t =>
      obtain ⟨sts, hpre, hb⟩ := hstopped t ⟨_, List.prefix_rfl, (hwalks.of_ok hm hrun).2.begins⟩
      exact ⟨sts, hpre, hb.begun, hb.results.trans (.of_eq rfl)⟩

/-- What a run of the abstract machine begins and records, also where it is stopped. -/
theorem srunnerRunTagged_begins {x : Ctx} {s : St List SendMsg NestedRun} {a : RunArgs}
    {tags : TCaseId → Option CStr} (h2 : s.proc.sendFile2 = none)
    (htags : ∀ tc, s.heap.lists (.tags tc) = tagStringToList (tags tc))
    (hkill : ∀ now, x.env.kill now = none)
    (hcalls : ∀ tc, .tcase tc ∈ plan (effectiveArgs x.env a) s.heap tags → CallFreeCase s.heap tc) :
    RunBegins x s.heap (forkStatusOf x.env s.sr.fstat)
      (planStarts s.heap (s.now.tcrun, false) (plan (effectiveArgs x.env a) s.heap tags)) s
      (endState (srunnerRunTagged x (runNested x) a s)) := by
  have hstart0 : RunBegins x s.heap (forkStatusOf x.env s.sr.fstat)
      (planStarts s.heap (s.now.tcrun, false) (plan (effectiveArgs x.env a) s.heap tags)) s
      (runStart x s) := ⟨[], List.nil_prefix, .nil rfl rfl⟩
  rw [srunnerRunTagged_split, bind_apply]
  have hbefore := hstart0.rest (unseen_startRun start?_of_isUser (fun _ => rfl) a.printMode)
    sparesResults_startRun
  cases hstart : (startRun x a.printMode : RunM List SendMsg NestedRun Unit) (runStart x s) with
  | error e s1 =>
      rw [hstart] at hbefore
      exact hbefore
  | ok u s1 =>
      have henter : EntersSuites x a s s1 := by
        obtain ⟨_, s2, hsetup, hrest⟩ := bind_eq_ok.mp hstart
        obtain ⟨_, s3, hlog, hbegin⟩ := bind_eq_ok.mp hrest
        exact entersSuites h2 hsetup hlog hbegin
      have hsuites := srunnerIterateSuites_begins htags hkill hcalls henter
      simp only [bind_apply]
      cases hiter : srunnerIterateSuites x (runNested x) (effectiveArgs x.env a) s1 with
      | error e s2 =>
          rw [hiter] at hsuites
          exact hsuites
      | ok u s2 =>
          rw [hiter] at hsuites
          exact RunBegins.rest hsuites (unseen_finishRun start?_of_isUser fun _ => rfl)
            sparesResults_finishRun

/-! ## the code -/

/-- **Every result has a place to print**, in every run in which nobody kills a test
process and user code makes no calls back into the library: wherever the run ends, the
test cases and the tests that it has begun are the first ones of its plan, and the
results that it has added have a file and a line, and no string that is printed of them
is null, if none of these test cases is left a failure of an unchecked teardown, and in
`CK_FORK` mode the functions of each of these tests mark their places. -/
theorem results_printable {x : Ctx} {s : St CkList UInt8 NestedRun} {a : RunArgs}
    {tags : TCaseId → Option CStr} (hs : Legible x.cfg s.proc) (h2 : s.proc.sendFile2 = none)
    (htags : ∀ tc, (s.heap.lists (.tags tc)).elems = tagStringToList (tags tc))
    (hkill : ∀ now, x.env.kill now = none)
    (hcalls : ∀ tc, .tcase tc ∈ plan (effectiveArgs x.env a) s.heap tags → CallFreeCase s.heap tc) :
    ∃ sts rs, sts <+: planStarts s.heap (s.now.tcrun, false)
      (plan (effectiveArgs x.env a) s.heap tags) ∧
      begun x.lvl (endState (srunnerRunTagged x (runNested x) a s)).proc.hist =
        begun x.lvl s.proc.hist ++ sts.map Start.obs ∧
      (endState (srunnerRunTagged x (runNested x) a s)).sr.resultlst.elems =
        s.sr.resultlst.elems ++ rs ∧
      (AllMark x s.heap (forkStatusOf x.env s.sr.fstat) sts → ∀ tr ∈ rs, Printable tr) := by
  obtain ⟨t, hst⟩ := hs.exists_stRel
  have hend := (sim_srunnerRunTagged (x := x) (keeps_runNested _) (sim_runNested _) a).endState hst
  generalize endState (srunnerRunTagged x (runNested x) a s) = s' at hend ⊢
  cases hst with
  | mk hfile1 hfile2 =>
      have hsame : SameCases s.heap s.heap.abs := ⟨rfl, rfl, fun _ _ _ => rfl⟩
      rw [h2] at hfile2
      cases hfile2
      have hplan : plan (effectiveArgs x.env a) s.heap.abs tags =
        plan (effectiveArgs x.env a) s.heap tags := hsame.plan _ tags
      obtain ⟨sts, hpre, hbegun, rs, hrs, hprint⟩ := srunnerRunTagged_begins (x := x) (a := a)
        (s := s.abs _ none) rfl htags hkill
        (fun tc htc => hsame.callFreeCase (hcalls tc (hplan ▸ htc)))
      generalize endState (srunnerRunTagged x (runNested x) a (s.abs _ none)) =
        t' at hend hrs hbegun
      have hpre : sts <+: planStarts s.heap.abs (s.now.tcrun, false)
        (plan (effectiveArgs x.env a) s.heap.abs tags) := hpre
      rw [hplan, hsame.planStarts] at hpre
      cases hend with
      | mk _ _ =>
          exact ⟨sts, rs, hpre, hbegun, hrs, fun hall =>
            hprint fun st hst => hsame.marks (hall st hst)⟩

/-- A test case whose checked setup marks a place, with a test that passes and one that
exits. -/
def Sample.marking : List (Sample.Case NestedRun) :=
  [⟨fun fl => if fl = .chSflst then [Sample.fixture [.markPoint Sample.loc]] else [],
    [Sample.test [], Sample.test [.exit 1]], none⟩]

theorem Sample.callFreeCase_marking (tc : TCaseId) :
    CallFreeCase (Sample.start Sample.marking .fork).heap tc := by
  cases tc with
  | zero =>
      refine ⟨fun fl f hf now n => ?_, fun tfun htfun i now n => ?_⟩
      · have hf : f ∈ if fl = .chSflst then [Sample.fixture [.markPoint Sample.loc]] else [] := by
          cases fl <;> exact hf
        split at hf
        · rw [List.mem_singleton.mp hf]
          simp [Sample.fixture]
        · cases hf
      · have htfun : tfun ∈ [Sample.test [], Sample.test [.exit 1]] := htfun
        simp only [List.mem_cons, List.not_mem_nil, or_false] at htfun
        rcases htfun with rfl | rfl <;> simp [Sample.test, tcaseAddTest]
  | succ tc => exact ⟨fun _ _ hf => (by cases hf), fun _ hf => (by cases hf)⟩

theorem Sample.allMark_marking :
    AllMark Sample.ctx (Sample.start Sample.marking .fork).heap .fork
      (planStarts (Sample.start Sample.marking .fork).heap (0, false)
        (plan (effectiveArgs Sample.ctx.env Sample.args) (Sample.start Sample.marking .fork).heap
          fun tc => Sample.marking[tc]?.bind Sample.Case.tags)) := by
  have hstarts : planStarts (Sample.start Sample.marking .fork).heap (0, false)
      (plan (effectiveArgs Sample.ctx.env Sample.args) (Sample.start Sample.marking .fork).heap
        fun tc => Sample.marking[tc]?.bind Sample.Case.tags) =
      [.tcase 1 false 0, .test ⟨1, 1⟩ 0 (Sample.test []) 0,
        .test ⟨1, 2⟩ 0 (Sample.test [.exit 1]) 0] := by
    rfl
  rw [hstarts, AllMark]
  simp only [List.forall_mem_cons]
  refine ⟨fun hw => absurd hw Bool.false_ne_true, fun _ => ⟨?_, ?_, ?_, ?_, ?_⟩,
    fun _ => ⟨?_, ?_, ?_, ?_, ?_⟩, by simp⟩ <;>
    decide +kernel

/-- Its results have places, the error too. -/
theorem results_printable_marking :
    ∃ s' tr tr', srunnerRunTagged Sample.ctx (runNested Sample.ctx) Sample.args
        (Sample.start Sample.marking .fork) = .ok () s' ∧
      s'.sr.resultlst.elems = [tr, tr'] ∧ Printable tr ∧ Printable tr' ∧ tr'.rtype = .error := by
  have hfinal : (returned (srunnerRunTagged Sample.ctx (runNested Sample.ctx) Sample.args
      (Sample.start Sample.marking .fork))).map
        (fun r => r.2.sr.resultlst.elems.map TestResult.rtype) =
      some [.pass, .error] := by
    decide +kernel
  obtain ⟨_, s', hrun, hres⟩ := ok_of_returned hfinal
  obtain ⟨sts, rs, hpre, -, hrs, hprint⟩ := results_printable
    (s := Sample.start Sample.marking .fork) (x := Sample.ctx) (a := Sample.args)
    (legible_of_closed rfl rfl) rfl (Sample.elems_tags Sample.marking .fork) (fun _ => rfl)
    (fun tc _ => Sample.callFreeCase_marking tc)
  have hprint := hprint fun st hst => Sample.allMark_marking st (hpre.subset hst)
  rw [hrun] at hrs
  have hrs : s'.sr.resultlst.elems = rs := hrs
  rw [hrs] at hres
  obtain ⟨tr, rest, rfl, -, hres⟩ := List.map_eq_cons_iff.mp hres
  obtain ⟨tr', rest', rfl, herror, hres⟩ := List.map_eq_cons_iff.mp hres
  cases List.map_eq_nil_iff.mp hres
  exact ⟨s', tr, tr', hrun, hrs, hprint tr (by simp), hprint tr' (by simp), herror⟩

/-- A test case whose checked setup exits before it has marked a place. -/
def Sample.silentExit : List (Sample.Case NestedRun) :=
  [⟨fun fl => if fl = .chSflst then [Sample.fixture [.exit 1]] else [], [Sample.test []], none⟩]

/-- The result has no place. -/
theorem result_without_place :
    ∃ s' tr, srunnerRunTagged Sample.ctx (runNested Sample.ctx) Sample.args
        (Sample.start Sample.silentExit .fork) = .ok () s' ∧
      s'.sr.resultlst.elems = [tr] ∧ tr.file = none ∧ tr.line = -1 := by
  have hfinal : (returned (srunnerRunTagged Sample.ctx (runNested Sample.ctx) Sample.args
      (Sample.start Sample.silentExit .fork))).map (fun r =>
        r.2.sr.resultlst.elems.map fun tr => (tr.file, tr.line)) = some [(none, -1)] := by
    decide +kernel
  obtain ⟨_, s', hrun, hres⟩ := ok_of_returned hfinal
  obtain ⟨tr, htr, hplace⟩ := List.map_eq_singleton_iff.mp hres
  exact ⟨s', tr, hrun, htr, congrArg Prod.fst hplace, congrArg Prod.snd hplace⟩

end LibCheck
