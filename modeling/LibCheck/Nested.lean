import LibCheck.Closed

/-!
# LibCheck.Nested

What a run inside a user function leaves behind, on the abstract machine.

* `runNested_obsAt` — a run records nothing at the level of another run, also
  when it is stopped.
* `runNested_ok` — a nested run that returns gives the message file of the
  surrounding run back as it was, and leaves `CK_FORK` as the current fork
  status, whatever it was before.
-/

namespace LibCheck

open Prog

variable {β ν : Type}

/-- The observations of the run at nesting level `lvl`. -/
def obsAt (lvl : Nat) (hist : List (Nat × Obs)) : List Obs :=
  hist.filterMap fun e => if e.1 = lvl then some e.2 else none

theorem obsAt_append_self (lvl : Nat) (o : Obs) (hist : List (Nat × Obs)) :
    obsAt lvl (hist ++ [(lvl, o)]) = obsAt lvl hist ++ [o] := by
  simp only [obsAt, List.filterMap_append, List.filterMap_cons, if_true, List.filterMap_nil]

theorem obsAt_append_of_ne (h : lvl ≠ l) (o : Obs) (hist : List (Nat × Obs)) :
    obsAt l (hist ++ [(lvl, o)]) = obsAt l hist := by
  simp only [obsAt, List.filterMap_append, List.filterMap_cons, if_neg h, List.filterMap_nil,
    List.append_nil]

/-! ## invariants of the message files and the history -/

/-- The message files and the history. -/
def Proc.msgs (p : Proc β) : Option (Pipe β) × Option (Pipe β) × List (Nat × Obs) :=
  (p.sendFile1, p.sendFile2, p.hist)

theorem Proc.msgs_granted (p : Proc β) : p.granted.msgs = p.msgs := by
  simp only [granted]
  split <;> rfl

theorem Proc.getPipe_granted (p : Proc β) : p.granted.getPipe = p.getPipe := by
  simp only [granted]
  split <;> rfl

/-- A message that is accepted is kept as it is. -/
theorem wire_ppack_ok {cfg : Config} {m : SendMsg} {data : List SendMsg}
    (h : Wire.ppack cfg m = .ok data) : data = [m] := by
  change (ppack cfg.sz cfg.maxMsg m).map (fun _ => [m]) = .ok data at h
  cases hpm : ppack cfg.sz cfg.maxMsg m with
  | error e => rw [hpm] at h; cases h
  | ok b => rw [hpm] at h; cases h; rfl

/-- What is accepted is within the limit; a message without negative fields is accepted there. -/
theorem wire_ppack_ok_iff {cfg : Config} {m : SendMsg} (hnn : m.NonNeg) :
    (∃ data : List SendMsg, Wire.ppack cfg m = .ok data) ↔ Limited cfg.maxMsg [m] := by
  have hacc : (Wire.ppack cfg m : Except EPrintf (List SendMsg)) =
      (ppack cfg.sz cfg.maxMsg m).map fun _ => [m] := rfl
  rw [hacc]
  constructor
  · rintro ⟨data, hdata⟩
    cases hp : ppack cfg.sz cfg.maxMsg m with
    | error e =>
        rw [hp] at hdata
        cases hdata
    | ok buf =>
        obtain ⟨-, hint, hmax, -⟩ := ppack_ok hp
        exact List.forall_mem_singleton.mpr ⟨hmax, hint⟩
  · intro hlim
    obtain ⟨hmax, hint⟩ := hlim m List.mem_cons_self
    rw [ppack_of_fits hnn hint hmax]
    exact ⟨[m], rfl⟩

/-- A property `J` of the message files and the history that the steps of a
process keep, as long as what is observed is as `O` says, and what is left of
it (`K`) where the process is stopped. -/
structure MsgsInv (x : Ctx) (O : Obs → Prop)
    (J K : Option (Pipe SendMsg) × Option (Pipe SendMsg) × List (Nat × Obs) → Prop) : Prop where
  stop : ∀ p : Proc SendMsg, J p.msgs → K p.msgs
  write : ∀ (p : Proc SendMsg) m, J p.msgs → p.getPipe.isSome → J (p.fwrite [m]).msgs
  renew : ∀ p : Proc SendMsg, J p.msgs → p.getPipe.isSome → J p.renew.msgs
  observe : ∀ (p : Proc SendMsg) o, O o → J p.msgs → J (p.observe x.lvl o).msgs
  join : ∀ p c : Proc SendMsg, J p.msgs → K c.msgs → J (p.join c).msgs

section

variable {x : Ctx} {O : Obs → Prop}
  {J K : Option (Pipe SendMsg) × Option (Pipe SendMsg) × List (Nat × Obs) → Prop}

/-- The programs that keep the property. -/
abbrev MsgsInv.Holds (J K : Option (Pipe SendMsg) × Option (Pipe SendMsg) × List (Nat × Obs) → Prop)
    {α : Type} (y : RunM List SendMsg ν α) : Prop :=
  Maintains (fun s => J s.proc.msgs) (fun e s => K s.proc.msgs ∧ e.Real) y

theorem MsgsInv.sendMsg (h : MsgsInv x O J K) (m : SendMsg) :
    MsgsInv.Holds J K (sendMsg x m : RunM List SendMsg ν Unit) := by
  intro s hs
  rcases sendMsg_apply x m s with ⟨n, sig, -, he⟩ | ⟨-, he⟩ | ⟨data, hm, hp, he⟩
  · rw [he]
    exact ⟨h.stop _ hs, trivial⟩
  · rw [he]
    refine ⟨h.stop s.proc.granted ?_, trivial⟩
    rw [Proc.msgs_granted]
    exact hs
  · rw [he]
    rw [wire_ppack_ok hm]
    refine h.write s.proc.granted m ?_ ?_
    · rw [Proc.msgs_granted]
      exact hs
    · rw [Proc.getPipe_granted]
      exact hp

/-- The receiver of whole messages never runs out of budget. -/
theorem real_of_rcvOutcome {cfg : Config} {ms : List SendMsg} {e : Stop}
    (h : rcvOutcome (Wire.punpack cfg ms) = .error e) : e.Real := by
  rw [rcvOutcome_messages] at h
  split at h <;> cases h
  trivial

theorem MsgsInv.receiveTestResult (h : MsgsInv x O J K) (w : Bool) :
    MsgsInv.Holds J K (receiveTestResult x w : RunM List SendMsg ν TestResult) := by
  intro s hs
  rw [receiveTestResult_apply]
  cases hp : s.proc.getPipe with
  | none => exact ⟨h.stop _ hs, trivial⟩
  | some f =>
      simp only [Option.map_some]
      cases hr : rcvOutcome (Wire.punpack x.cfg f.content) with
      | error e => exact ⟨h.stop _ hs, real_of_rcvOutcome hr⟩
      | ok rmsg => exact h.renew _ hs (by rw [hp]; rfl)

theorem MsgsInv.killPoint (h : MsgsInv x O J K) :
    MsgsInv.Holds J K (killPoint : RunM List SendMsg ν Unit) := by
  refine Maintains.bind (Maintains.read _) fun k => ?_
  match k with
  | none => exact Maintains.pure ()
  | some (0, sig) => exact Maintains.throw fun s hs => ⟨h.stop _ hs, trivial⟩
  | some (n + 1, sig) => exact Maintains.update fun _ hs => hs

theorem MsgsInv.forkChild (h : MsgsInv x O J K) {p : RunM List SendMsg ν Unit}
    (hp : MsgsInv.Holds J K p) : MsgsInv.Holds J K (forkChild x p) := by
  intro s hs
  have hc := hp (s.onProc fun q => { q with killIn := x.env.kill s.now }) hs
  simp only [LibCheck.forkChild]
  cases hres : p (s.onProc fun q => { q with killIn := x.env.kill s.now }) with
  | ok a c =>
      rw [hres] at hc
      exact h.join s.proc c.proc hs (h.stop _ hc)
  | error e c =>
      rw [hres] at hc
      have hj := h.join s.proc c.proc hs hc.1
      cases e with
      | exited code => exact hj
      | signaled sig => exact hj
      | undefined => exact ⟨h.stop _ hj, trivial⟩
      | diverged => exact hc.2.elim
      | brokenOff => exact hc.2.elim

theorem MsgsInv.seqClosed (h : MsgsInv x O J K) :
    SeqClosed fun {α} (y : RunM List SendMsg ν α) => MsgsInv.Holds J K y :=
  seqClosed_maintains fun _ he _ hs => ⟨h.stop _ hs, he⟩

theorem MsgsInv.observes (h : MsgsInv x O J K) (o : Obs) (ho : O o) :
    MsgsInv.Holds J K (update (St.onProc (Proc.observe x.lvl o)) : RunM List SendMsg ν Unit) :=
  Maintains.update fun _ hs => h.observe _ o ho hs

/-- Fixtures and tests observe the calls of user functions and failing
assertions. -/
theorem MsgsInv.testClosed (h : MsgsInv x O J K) (hO : ∀ o, o.isUser → O o)
    {call : ν → RunM List SendMsg ν Unit} (hcall : ∀ c, MsgsInv.Holds J K (call c)) :
    TestClosed x call fun {α} (y : RunM List SendMsg ν α) => MsgsInv.Holds J K y where
  toSeqClosed := h.seqClosed
  forList _ _ hb := fun s hs => Maintains.findSomeM (fun f _ => hb f) s hs
  fork _ hp := h.forkChild hp
  kill := h.killPoint
  send := h.sendMsg
  receive := h.receiveTestResult
  assertion _ := h.observes _ (hO _ rfl)
  fixture _ _ := h.observes _ (hO _ rfl)
  body _ _ := h.observes _ (hO _ rfl)
  setjmp := Maintains.update fun _ hs => hs
  alarm _ := Maintains.update fun _ hs => hs
  call := hcall

theorem MsgsInv.callLfun (h : MsgsInv x O J K) (hO : ∀ c, O (.log c)) (lg : Log) (evt : ClEvent)
    (obj : LogObj) : MsgsInv.Holds J K (callLfun x lg evt obj : RunM List SendMsg ν Unit) := by
  refine Maintains.bind (Maintains.update fun s hs => ?_) fun _ =>
    Maintains.bind (Maintains.read _) fun _ => Maintains.bind (Maintains.update fun s hs => ?_)
      fun _ => Maintains.bind (Maintains.read _) fun _ => Maintains.bind (Maintains.read _) fun _ =>
        Maintains.bind (Maintains.read _) fun _ => Maintains.bind (Maintains.read _) fun _ =>
          Maintains.bind (h.observes _ (hO _)) fun _ => ?_
  · simp only [St.onProc]
    split
    · exact hs
    · exact hs
  · simp only [St.onProc]
    split
    · exact hs
    · exact hs
  · cases hst : lfunStop lg.lfun obj with
    | none => exact Maintains.pure ()
    | some e => exact h.seqClosed.throw e (real_of_lfunStop hst)

/-- The test cases of a run observe everything but calls of test cases. -/
theorem MsgsInv.caseClosed (h : MsgsInv x O J K) (hO : ∀ o, o.isTcase = false → O o)
    {call : ν → RunM List SendMsg ν Unit} (hcall : ∀ c, MsgsInv.Holds J K (call c)) :
    CaseClosed x call fun {α} (y : RunM List SendMsg ν α) => MsgsInv.Holds J K y where
  toTestClosed := h.testClosed (fun o ho => hO o (by cases o <;> first | rfl | cases ho)) hcall
  fstat _ := Maintains.update fun _ hs => hs
  addFailure _ _ := Maintains.update fun _ hs => hs
  occasion _ := Maintains.update fun _ hs => hs
  iter _ _ _ := h.observes _ (hO _ rfl)
  event obj evt :=
    (h.testClosed (fun o ho => hO o (by cases o <;> first | rfl | cases ho)) hcall).srunnerSendEvt
      fun lg => h.callLfun (fun _ => hO _ rfl) lg evt obj

/-- A property of the message files and the history that is indifferent to
everything but calls of test cases survives all of a run but these calls. -/
theorem MsgsInv.logClosed (h : MsgsInv x O J K) (hO : ∀ o, o.isTcase = false → O o)
    {call : ν → RunM List SendMsg ν Unit} (hcall : ∀ c, MsgsInv.Holds J K (call c)) :
    LogClosed x call fun {α} (y : RunM List SendMsg ν α) => MsgsInv.Holds J K y where
  toCaseClosed := h.caseClosed hO hcall
  logs _ := Maintains.update fun _ hs => hs
  loglst _ := Maintains.update fun _ hs => hs

/-- A property of the message files and the history survives every part of a
run between the opening and the closing of its message file. -/
theorem MsgsInv.runClosed (h : MsgsInv x O J K) (hO : ∀ o, O o)
    {call : ν → RunM List SendMsg ν Unit} (hcall : ∀ c, MsgsInv.Holds J K (call c)) :
    RunClosed x call fun {α} (y : RunM List SendMsg ν α) => MsgsInv.Holds J K y where
  toLogClosed := h.logClosed (fun o _ => hO o) hcall
  tagLst _ _ := Maintains.update fun _ hs => hs
  tcase _ := h.observes _ (hO _)

end

/-! ## runs that come to an end -/

/-- On the abstract machine an invariant of the memory that holds of every part
of a run without calls holds, together with the calls that keep it, of every
part of a run, and no part of the run goes on forever. -/
theorem runClosed_ends {x : Ctx} {call : ν → RunM List SendMsg ν Unit}
    {I : Heap List ν × SRunner List × When → Prop}
    (h : RunClosed x (fun _ => pure ()) fun {α} (y : RunM List SendMsg ν α) =>
      Maintains (fun s => I s.memory) (fun _ _ => True) y)
    (hcall : ∀ c, Maintains (fun s => I s.memory) (fun e _ => Stop.Real e) (call c)) :
    RunClosed x call fun {α} (y : RunM List SendMsg ν α) =>
      Maintains (fun s => I s.memory) (fun e _ => Stop.Real e) y := by
  have hinv : MsgsInv x (fun _ => True) (fun _ => True) (fun _ => True) :=
    ⟨fun _ _ => trivial, fun _ _ _ _ => trivial, fun _ _ _ => trivial, fun _ _ _ _ => trivial,
      fun _ _ _ _ => trivial⟩
  have hend : RunClosed x (fun _ => pure ()) fun {α} (y : RunM List SendMsg ν α) =>
      MsgsInv.Holds (fun _ => True) (fun _ => True) y :=
    hinv.runClosed (fun _ => trivial) fun _ => Maintains.pure ()
  have both : ∀ {α : Type} {y : RunM List SendMsg ν α},
      Maintains (fun s => I s.memory) (fun _ _ => True) y →
      MsgsInv.Holds (fun _ => True) (fun _ => True) y →
      Maintains (fun s => I s.memory) (fun e _ => Stop.Real e) y := by
    intro α y h1 h2 s hs
    have hI := h1 s hs
    have hE := h2 s trivial
    cases hy : y s with
    | ok a s' =>
        rw [hy] at hI
        exact hI
    | error e s' =>
        rw [hy] at hE
        exact hE.2
  exact
    { seqClosed_maintains fun _ he _ _ => he with
      forList := fun _ _ hb s hs => Maintains.findSomeM (fun f _ => hb f) s hs
      fork := fun p hp s hs => by
        have hc := hp (s.onProc fun q => { q with killIn := x.env.kill s.now }) hs
        simp only [forkChild]
        cases hres : p (s.onProc fun q => { q with killIn := x.env.kill s.now }) with
        | ok a c => exact hs
        | error e c =>
            rw [hres] at hc
            cases e with
            | exited code => exact hs
            | signaled sig => exact hs
            | undefined => trivial
            | diverged => exact hc.elim
            | brokenOff => exact hc.elim
      kill := both h.kill hend.kill
      send := fun m => both (h.send m) (hend.send m)
      receive := fun w => both (h.receive w) (hend.receive w)
      assertion := fun a => both (h.assertion a) (hend.assertion a)
      fixture := fun fl addr => both (h.fixture fl addr) (hend.fixture fl addr)
      body := fun tname i => both (h.body tname i) (hend.body tname i)
      setjmp := both h.setjmp hend.setjmp
      alarm := fun b => both (h.alarm b) (hend.alarm b)
      call := hcall
      fstat := fun f => both (h.fstat f) (hend.fstat f)
      addFailure := fun tr htr => both (h.addFailure tr htr) (hend.addFailure tr htr)
      occasion := fun f => both (h.occasion f) (hend.occasion f)
      iter := fun tc tname i => both (h.iter tc tname i) (hend.iter tc tname i)
      event := fun obj evt => both (h.event obj evt) (hend.event obj evt)
      logs := fun f => both (h.logs f) (hend.logs f)
      loglst := fun b => both (h.loglst b) (hend.loglst b)
      tagLst := fun a l => both (h.tagLst a l) (hend.tagLst a l)
      tcase := fun tc => both (h.tcase tc) (hend.tcase tc) }

/-- A run under an invariant as in `runClosed_ends` comes to an end. -/
theorem srunnerRunTagged_ends {x : Ctx} {call : ν → RunM List SendMsg ν Unit}
    {I : Heap List ν × SRunner List × When → Prop}
    (h : RunClosed x call fun {α} (y : RunM List SendMsg ν α) =>
      Maintains (fun s => I s.memory) (fun e _ => Stop.Real e) y) (a : RunArgs) :
    Maintains (fun s => I s.memory) (fun e _ => Stop.Real e) (srunnerRunTagged x call a) :=
  h.srunnerRunTagged
    (Maintains.bind (Maintains.read _) fun _ => Maintains.ite (Maintains.update fun _ hs => hs)
      (Maintains.bind (Maintains.read _) fun _ => Maintains.ite (Maintains.update fun _ hs => hs)
        (Maintains.throw fun _ _ => trivial)))
    (Maintains.bind (Maintains.read _) fun _ => Maintains.ite (Maintains.update fun _ hs => hs)
      (Maintains.bind (Maintains.read _) fun _ => Maintains.ite (Maintains.update fun _ hs => hs)
        (Maintains.throw fun _ _ => trivial)))
    (fun _ => Maintains.update fun _ hs => hs) a

/-! ## nested runs -/

/-- The files of a process are those of its history: renewing a file records
nothing. -/
theorem Proc.hist_renew (p : Proc β) : p.renew.hist = p.hist := by
  simp only [renew]
  split <;> rfl

theorem Proc.hist_fwrite (data : List β) (p : Proc β) : (p.fwrite data).hist = p.hist := by
  simp only [fwrite]
  split <;> rfl

/-- A run records nothing at the level of another run. -/
theorem msgsInv_obsAt {x : Ctx} (hl : x.lvl ≠ l) (h : List Obs) :
    MsgsInv x (fun _ => True) (fun m => obsAt l m.2.2 = h) (fun m => obsAt l m.2.2 = h) where
  stop _ hp := hp
  write p m hp _ := by
    show obsAt l (p.fwrite [m]).hist = h
    rw [Proc.hist_fwrite]
    exact hp
  renew p hp _ := by
    show obsAt l p.renew.hist = h
    rw [Proc.hist_renew]
    exact hp
  observe p o _ hp := (obsAt_append_of_ne hl o p.hist).trans hp
  join _ _ _ hc := hc

/-- A nested run records nothing at other levels, also where it is stopped. -/
theorem runNested_obsAt {x : Ctx} (hl : x.lvl + 1 ≠ l) (h : List Obs) (c : NestedRun) :
    Maintains (fun s => obsAt l s.proc.hist = h)
      (fun e s => obsAt l s.proc.hist = h ∧ e.Real)
      (runNested x c : RunM List SendMsg ν Unit) := by
  have hinv := msgsInv_obsAt (x := x.nested c.env) hl h
  have hclosed : RunClosed (x.nested c.env) Empty.elim fun {α} (y : RunM List SendMsg Empty α) =>
      MsgsInv.Holds (fun m => obsAt l m.2.2 = h) (fun m => obsAt l m.2.2 = h) y :=
    hinv.runClosed (fun _ => trivial) fun c => c.elim
  have hrun := hclosed.srunnerRunTagged
    (Maintains.bind (Maintains.read _) fun _ => Maintains.ite (Maintains.update fun _ hs => hs)
      (Maintains.bind (Maintains.read _) fun _ => Maintains.ite (Maintains.update fun _ hs => hs)
        (Maintains.throw fun _ hs => ⟨hs, trivial⟩)))
    (Maintains.bind (Maintains.read _) fun _ => Maintains.ite (Maintains.update fun _ hs => hs)
      (Maintains.bind (Maintains.read _) fun _ => Maintains.ite (Maintains.update fun _ hs => hs)
        (Maintains.throw fun _ hs => ⟨hs, trivial⟩)))
    (fun f => Maintains.update fun _ hs => hs) c.args
  intro s hs
  have hend := hrun (c.start s.proc) hs
  simp only [runNested]
  cases hres : srunnerRunTagged (x.nested c.env) Empty.elim c.args
      (c.start s.proc : St List SendMsg Empty) with
  | ok a s' =>
      rw [hres] at hend
      exact hend
  | error e s' =>
      rw [hres] at hend
      exact hend

/-! ## views of the history -/

/-- What the view `g` shows of the observations of the run at nesting level
`lvl`. -/
def shown (g : Obs → Option γ) (lvl : Nat) (hist : List (Nat × Obs)) : List γ :=
  (obsAt lvl hist).filterMap g

theorem shown_append (g : Obs → Option γ) (lvl : Nat) (o : Obs) (hist : List (Nat × Obs)) :
    shown g lvl (hist ++ [(lvl, o)]) = shown g lvl hist ++ (g o).toList := by
  rw [shown, obsAt_append_self, List.filterMap_append]
  cases h : g o <;> simp [shown, h]

/-- What is not shown does not change what is shown. -/
theorem msgsInv_shown (x : Ctx) (g : Obs → Option γ) (c : List γ) :
    MsgsInv x (fun o => g o = none) (fun m => shown g x.lvl m.2.2 = c)
      (fun m => shown g x.lvl m.2.2 = c) where
  stop _ hp := hp
  write p m hp _ := by
    show shown g x.lvl (p.fwrite [m]).hist = c
    rw [Proc.hist_fwrite]
    exact hp
  renew p hp _ := by
    show shown g x.lvl p.renew.hist = c
    rw [Proc.hist_renew]
    exact hp
  observe p o ho hp := by
    show shown g x.lvl (p.hist ++ [(x.lvl, o)]) = c
    rw [shown_append, ho, show shown g x.lvl p.hist = c from hp]
    exact List.append_nil c
  join _ _ _ hc := hc

/-- Nothing of a nested run is shown. -/
theorem runNested_shown (x : Ctx) (g : Obs → Option γ) (c : List γ) (n : NestedRun) :
    MsgsInv.Holds (fun m => shown g x.lvl m.2.2 = c) (fun m => shown g x.lvl m.2.2 = c)
      (runNested x n : RunM List SendMsg NestedRun Unit) := by
  intro s hs
  have h := runNested_obsAt (Nat.succ_ne_self x.lvl) (obsAt x.lvl s.proc.hist) n s rfl
  cases hres : (runNested x n s : EStateM.Result Stop (St List SendMsg NestedRun) Unit) with
  | ok a s' =>
      rw [hres] at h
      show shown g x.lvl s'.proc.hist = c
      rw [shown, h]
      exact hs
  | error e s' =>
      rw [hres] at h
      refine ⟨?_, h.2⟩
      show shown g x.lvl s'.proc.hist = c
      rw [shown, h.1]
      exact hs

/-! ## the surrounding message file -/

/-- The first message file is left alone while the second one is open. -/
theorem msgsInv_outerFile (x : Ctx) (f : Pipe SendMsg) :
    MsgsInv x (fun _ => True) (fun m => m.1 = some f ∧ m.2.1.isSome) (fun m => m.1 = some f) where
  stop _ hp := hp.1
  write p m hp _ := by
    obtain ⟨h1, h2⟩ := hp
    obtain ⟨g, h2⟩ := Option.isSome_iff_exists.mp h2
    simp only [Proc.msgs] at h1 h2 ⊢
    simp only [Proc.fwrite, h2]
    exact ⟨h1, rfl⟩
  renew p hp _ := by
    obtain ⟨h1, h2⟩ := hp
    obtain ⟨g, h2⟩ := Option.isSome_iff_exists.mp h2
    simp only [Proc.msgs] at h1 h2 ⊢
    simp only [Proc.renew, h1, h2]
    exact ⟨rfl, rfl⟩
  observe _ _ _ hp := hp
  join p c hp hc := by
    obtain ⟨h1, h2⟩ := hp
    obtain ⟨g, h2⟩ := Option.isSome_iff_exists.mp h2
    simp only [Proc.msgs] at h1 h2 hc ⊢
    simp only [Proc.join, h1, h2, hc, sharedFile, if_true]
    refine ⟨trivial, ?_⟩
    cases c.sendFile2 with
    | none => rfl
    | some g' =>
        simp only
        split <;> rfl

/-- Opening a message file while the first one is open. -/
theorem setupPipe_ok {s s' : St List SendMsg ν} {f : Pipe SendMsg}
    (h1 : s.proc.sendFile1 = some f) (h : setupPipe s = .ok () s') :
    s.proc.sendFile2 = none ∧ s'.proc.sendFile1 = some f ∧ s'.proc.sendFile2.isSome := by
  cases h2 : s.proc.sendFile2 with
  | none =>
      simp [setupPipe, bind_apply, h1, h2] at h
      cases h
      exact ⟨rfl, h1, rfl⟩
  | some g =>
      simp [setupPipe, bind_apply, h1, h2, eprintf] at h

/-- Closing the second message file. -/
theorem teardownPipe_ok {s s' : St List SendMsg ν} (h2 : s.proc.sendFile2.isSome)
    (h : teardownPipe s = .ok () s') :
    s'.proc.sendFile1 = s.proc.sendFile1 ∧ s'.proc.sendFile2 = none := by
  simp [teardownPipe, bind_apply, h2] at h
  cases h
  exact ⟨rfl, rfl⟩

/-- **Nested runs give back the message file**: a run that returns and that was
started while the first message file was open leaves that file as it was.  It
leaves `CK_FORK` as the current fork status. -/
theorem srunnerRunTagged_inner {x : Ctx} {a : RunArgs} {call : ν → RunM List SendMsg ν Unit}
    {s s' : St List SendMsg ν} {f : Pipe SendMsg}
    (hcall : ∀ c, MsgsInv.Holds (fun m => m.1 = some f ∧ m.2.1.isSome) (fun m => m.1 = some f)
      (call c))
    (h1 : s.proc.sendFile1 = some f) (h : srunnerRunTagged x call a s = .ok () s') :
    s.proc.sendFile2 = none ∧ s'.proc.sendFile1 = some f ∧ s'.proc.sendFile2 = none ∧
      s'.proc.fstat = .fork := by
  have hclosed := (msgsInv_outerFile x f).runClosed (fun _ => trivial) hcall
  obtain ⟨s1, s2, s3, s4, s5, s6, s7, hsetup, hlog, hstart, hsuites, hlogend, hendlog,
      htear, rfl⟩ :=
    srunnerRunTagged_ok h
  obtain ⟨hnone, ho1⟩ := setupPipe_ok (s := runStart x s) h1 hsetup
  have ho2 := (hclosed.srunnerInitLogging _).of_ok ho1 hlog
  have ho3 := (hclosed.event _ _).of_ok ho2 hstart
  have ho4 := (hclosed.toSuitesClosed.steps.srunnerIterateSuites _).of_ok ho3 hsuites
  have ho5 := (hclosed.event _ _).of_ok ho4 hlogend
  have ho6 := hclosed.srunnerEndLogging.of_ok ho5 hendlog
  obtain ⟨hfile1, hfile2⟩ := teardownPipe_ok ho6.2 htear
  exact ⟨hnone, hfile1.trans ho6.1, hfile2, rfl⟩

/-- A nested run that returns, from within a run. -/
theorem runNested_ok {x : Ctx} {c : NestedRun} {s s' : St List SendMsg NestedRun}
    {f : Pipe SendMsg} (h1 : s.proc.sendFile1 = some f) (h : runNested x c s = .ok () s') :
    s.proc.sendFile2 = none ∧ s'.proc.sendFile1 = some f ∧ s'.proc.sendFile2 = none ∧
      s'.proc.fstat = .fork := by
  simp only [runNested] at h
  cases hres : srunnerRunTagged (x.nested c.env) Empty.elim c.args
      (c.start s.proc : St List SendMsg Empty) with
  | error e t =>
      rw [hres] at h
      cases h
  | ok a t =>
      rw [hres] at h
      cases h
      exact srunnerRunTagged_inner (s := c.start s.proc) (fun c => c.elim) h1 hres

end LibCheck
