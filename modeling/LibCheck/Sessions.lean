import LibCheck.Guarded
import LibCheck.Tap

/-!
# LibCheck.Sessions

The static variables of the loggers over the runs of a process, one after the
other or one inside another.

* `Static` — a static variable of a callback: the counter of `tap_lfun`, the
  start and the date of `xml_lfun`.
* `Static.OwnLog` — the calls of the callback in one run, with the values they
  would see if that run were the only one of its process.
* `At`, `testClosed_at` — fixtures and tests leave the variable and the log of
  their own run alone if the runs that they make do.
* `srunnerRunTagged_logs` — a run adds one log to those of its process.
* `logs_own` — in a process whose runs do not share a static variable every TAP
  log is numbered from `1` on, and every XML log is timed by its own run.
-/

namespace LibCheck

open Prog

/-! ## static variables -/

/-- The static variables of the callbacks: `num_tests_run` of `tap_lfun`, and
`ts_start` and `t` of `xml_lfun`. -/
abbrev Loggers := Nat × XmlStatics

def Proc.loggers (p : Proc β) : Loggers := (p.numTestsRun, p.xmlStatics)

/-- The static variables after a call of the callback `l`. -/
def Loggers.after (l : LFun) (evt : ClEvent) (clock : LogClock) (w : Loggers) : Loggers :=
  (if l = .tapLfun then tapCount evt w.1 else w.1, if l = .xmlLfun then xmlStart clock w.2 else w.2)

theorem Proc.loggers_notify (x : Ctx) (evt : ClEvent) (obj : LogObj) (stats : TestStats)
    (results : List TestResult) (p : Proc β) (lg : Log) :
    (p.notify x evt obj stats results lg).loggers =
      Loggers.after lg.lfun evt (x.env.logClock p.hist.length) p.loggers := rfl

/-- A static variable of the callback `lfun`: how to read it, what a call makes of
it, and its initial value.  Other callbacks leave it alone. -/
structure Static (σ : Type) where
  lfun : LFun
  get : Loggers → σ
  step : ClEvent → LogClock → σ → σ
  init : σ
  /-- as good as new for the first event of a run -/
  Fresh : σ → Prop
  own : ∀ evt clock w, get (Loggers.after lfun evt clock w) = step evt clock (get w)
  fresh : ∀ clock v, Fresh v → step .initlogSr clock v = step .initlogSr clock init
  other : ∀ l, l ≠ lfun → ∀ evt clock w, get (Loggers.after l evt clock w) = get w

/-- `num_tests_run`. -/
def tapStatic : Static Nat where
  lfun := .tapLfun
  get := Prod.fst
  step evt _ := tapCount evt
  init := 0
  Fresh _ := True
  own _ _ _ := rfl
  fresh _ _ _ := rfl
  other _ hl _ _ _ := if_neg hl

/-- `ts_start` and `t`. -/
def xmlStatic : Static XmlStatics where
  lfun := .xmlLfun
  get := Prod.snd
  step _ := xmlStart
  init := ⟨⟨0, 0⟩, .empty⟩
  Fresh v := v.t = .empty
  own _ _ _ := rfl
  fresh clock v hv := by rw [xmlStart, if_pos hv, xmlStart, if_pos rfl, hv]
  other _ hl _ _ _ := if_neg hl

/-- A call of the callback `lfun`. -/
def Obs.callOf (lfun : LFun) : Obs → Option LogCall
  | .log c => if c.log.lfun = lfun then some c else none
  | _ => none

/-- The calls of the callback `lfun` in the runs at nesting level `lvl`. -/
def callsOf (lfun : LFun) (lvl : Nat) (hist : List (Nat × Obs)) : List LogCall :=
  shown (Obs.callOf lfun) lvl hist

/-! ## logs -/

namespace Static

variable {σ : Type} (S : Static σ)

/-- The value of the variable that a call leaves. -/
def val (c : LogCall) : σ := S.get (c.numTestsRun, c.xmlStatics)

/-- The value after the calls, if it is `v` before them. -/
def final (v : σ) : List LogCall → σ
  | [] => v
  | c :: cs => final (S.val c) cs

/-- Each call finds the variable as the call before it has left it. -/
def Follows (v : σ) : List LogCall → Prop
  | [] => True
  | c :: cs => S.val c = S.step c.evt c.clock v ∧ Follows (S.val c) cs

/-- The calls of a run, with the values they would see if it were the only run of
the process. -/
structure OwnLog (log : List LogCall) : Prop where
  begins : ∃ c cs, log = c :: cs ∧ c.evt = .initlogSr ∧ ∀ d ∈ cs, d.evt ≠ .initlogSr
  follows : S.Follows S.init log

/-- The calls are those of runs that have the variable to themselves, one after the
other. -/
def Owned (calls : List LogCall) : Prop :=
  ∃ logs : List (List LogCall), calls = logs.flatten ∧ ∀ log ∈ logs, S.OwnLog log

/-- Such calls, in the middle of a run, where the variable is `v`. -/
def Open (calls : List LogCall) (v : σ) : Prop :=
  ∃ old log, calls = old ++ log ∧ S.Owned old ∧ S.OwnLog log ∧ S.final S.init log = v

variable {S} {calls log : List LogCall} {c : LogCall} {v : σ}

theorem final_append (v : σ) (log : List LogCall) (c : LogCall) :
    S.final v (log ++ [c]) = S.val c := by
  induction log generalizing v with
  | nil => rfl
  | cons d log ih => exact ih _

theorem follows_append :
    S.Follows v (log ++ [c]) ↔
      S.Follows v log ∧ S.val c = S.step c.evt c.clock (S.final v log) := by
  induction log generalizing v with
  | nil => simp [Follows, final]
  | cons d log ih => rw [List.cons_append, Follows, ih, Follows, final, and_assoc]

theorem OwnLog.append (h : S.OwnLog log) (hevt : c.evt ≠ .initlogSr)
    (hval : S.val c = S.step c.evt c.clock (S.final S.init log)) : S.OwnLog (log ++ [c]) where
  begins := by
    obtain ⟨d, cs, rfl, hd, hcs⟩ := h.begins
    refine ⟨d, cs ++ [c], rfl, hd, ?_⟩
    simpa [or_imp, forall_and] using ⟨hcs, hevt⟩
  follows := follows_append.mpr ⟨h.follows, hval⟩

theorem owned_nil : S.Owned [] := ⟨[], rfl, by simp⟩

theorem Open.owned (h : S.Open calls v) : S.Owned calls := by
  obtain ⟨_, log, rfl, ⟨logs, rfl, hlogs⟩, hlog, -⟩ := h
  refine ⟨logs ++ [log], by simp, ?_⟩
  simpa [or_imp, forall_and] using ⟨hlogs, hlog⟩

/-- The first call of a run opens a log. -/
theorem Owned.init (h : S.Owned calls) (hevt : c.evt = .initlogSr)
    (hval : S.val c = S.step .initlogSr c.clock S.init) : S.Open (calls ++ [c]) (S.val c) := by
  refine ⟨calls, [c], rfl, h, ⟨⟨c, [], rfl, hevt, by simp⟩, ?_⟩, rfl⟩
  rw [← hevt] at hval
  exact ⟨hval, trivial⟩

/-- Every other call goes on with the log. -/
theorem Open.call (h : S.Open calls v) (hevt : c.evt ≠ .initlogSr)
    (hval : S.val c = S.step c.evt c.clock v) : S.Open (calls ++ [c]) (S.val c) := by
  obtain ⟨old, log, rfl, hold, hlog, rfl⟩ := h
  exact ⟨old, log ++ [c], by rw [List.append_assoc], hold, hlog.append hevt hval, final_append ..⟩

end Static

/-! ## what they say -/

/-- The clock of an XML log, from what the callback sees at a call: the date `t`, and
the time since `ts_start`, as an `unsigned long`. -/
def LogCall.xmlClock (cfg : Config) (c : LogCall) : XmlClock where
  datetime := c.xmlStatics.t
  elapsed := (diffInUsec c.xmlStatics.tsStart c.clock.tsEnd % (2 ^ cfg.sz.bits : Nat)).toNat

/-- A TAP log of one run: the tests are numbered from `1` on, and the plan is their
number. -/
structure TapLog (log : List LogCall) : Prop where
  begins : ∃ c cs, log = c :: cs ∧ c.evt = .initlogSr ∧ ∀ d ∈ cs, d.evt ≠ .initlogSr
  numbered : ∀ before c after, log = before ++ c :: after →
    c.numTestsRun = (before ++ [c]).countP fun d => d.evt = .endT

/-- An XML log of one run: if the time of its first call has a date, then it has this
date, and its duration is counted from that call on. -/
structure XmlLog (cfg : Config) (log : List LogCall) : Prop where
  begins : ∃ c cs, log = c :: cs ∧ c.evt = .initlogSr ∧ ∀ d ∈ cs, d.evt ≠ .initlogSr
  timed : ∀ first rest date, log = first :: rest → first.clock.date = some date → date ≠ .empty →
    ∀ c ∈ log, c.xmlClock cfg =
      ⟨date, (diffInUsec first.clock.tsStart c.clock.tsEnd % (2 ^ cfg.sz.bits : Nat)).toNat⟩

theorem tapFollows_numbered {cs before after : List LogCall} {c : LogCall} {n : Nat}
    (hinit : ∀ d ∈ cs, d.evt ≠ .initlogSr) (h : tapStatic.Follows n cs)
    (hcs : cs = before ++ c :: after) :
    c.numTestsRun = n + (before ++ [c]).countP fun d => d.evt = .endT := by
  induction before generalizing n cs with
  | nil =>
      subst hcs
      have hval : c.numTestsRun = tapCount c.evt n := h.1
      have hevt := hinit c (by simp)
      rw [hval]
      cases he : c.evt <;> simp_all [tapCount]
  | cons d before ih =>
      subst hcs
      have hval : d.numTestsRun = tapCount d.evt n := h.1
      have hevt := hinit d (by simp)
      rw [ih (fun e he => hinit e (List.mem_cons_of_mem d he)) h.2 rfl]
      show d.numTestsRun + _ = _
      rw [hval, List.cons_append, List.countP_cons]
      cases he : d.evt <;> simp_all [tapCount]
      omega

theorem tapLog_of_own {log : List LogCall} (h : tapStatic.OwnLog log) : TapLog log where
  begins := h.begins
  numbered := by
    obtain ⟨d, cs, rfl, hd, hcs⟩ := h.begins
    have hfollows := h.follows
    have hval : d.numTestsRun = 0 := by
      have hval : d.numTestsRun = tapCount d.evt 0 := hfollows.1
      rw [hval, hd]
      rfl
    intro before c after hlog
    cases before with
    | nil =>
        cases hlog
        simp [hval, hd]
    | cons e before =>
        cases hlog
        have hnum := tapFollows_numbered hcs hfollows.2 rfl
        have hval' : tapStatic.val d = 0 := hval
        rw [hnum, hval']
        simp [List.countP_cons, hd]

/-- Once there is a date, nothing changes. -/
theorem xmlFollows_const {cs : List LogCall} {v : XmlStatics} (hv : v.t ≠ .empty)
    (h : xmlStatic.Follows v cs) : ∀ c ∈ cs, c.xmlStatics = v := by
  induction cs generalizing v with
  | nil => simp
  | cons c cs ih =>
      have hval : c.xmlStatics = v := Eq.trans (h.1 : c.xmlStatics = xmlStart c.clock v) (if_neg hv)
      have hrest := ih hv (by rw [← hval]; exact h.2)
      simpa [hval] using hrest

theorem xmlLog_of_own (cfg : Config) {log : List LogCall} (h : xmlStatic.OwnLog log) :
    XmlLog cfg log where
  begins := h.begins
  timed := by
    rintro first rest date rfl hdate hne c hc
    have hfollows := h.follows
    have hfirst : first.xmlStatics = ⟨first.clock.tsStart, date⟩ := by
      have hval : first.xmlStatics = xmlStart first.clock xmlStatic.init := hfollows.1
      rw [hval, xmlStart, if_pos (show xmlStatic.init.t = .empty from rfl), hdate]
      rfl
    have hrest : ∀ d ∈ rest, d.xmlStatics = first.xmlStatics :=
      xmlFollows_const (by rw [hfirst]; exact hne) hfollows.2
    have hall : c.xmlStatics = ⟨first.clock.tsStart, date⟩ := by
      rcases List.mem_cons.mp hc with rfl | hc
      · exact hfirst
      · rw [hrest c hc, hfirst]
    rw [LogCall.xmlClock, hall]

/-! ## fixtures and tests -/

section

variable {σ ν : Type} (S : Static σ) (x : Ctx) (O : List (Nat × Obs) → Prop) (lgs : List Log)
  (held : Prop)

/-- A state of a run with the loggers `lgs`: its own calls so far, the value of the
variable if it is `held`, and what is said of the rest of the history. -/
structure At (calls : List LogCall) (v : σ) (s : St List SendMsg ν) : Prop where
  calls : callsOf S.lfun x.lvl s.proc.hist = calls
  value : held → S.get s.proc.loggers = v
  outside : O s.proc.hist
  loggers : s.heap.lists .loglst = lgs

/-- A state in which the run is stopped. -/
structure StoppedAt (calls : List LogCall) (s : St List SendMsg ν) : Prop where
  calls : callsOf S.lfun x.lvl s.proc.hist = calls
  outside : O s.proc.hist

/-- Parts of a run that leave its log and the variable alone. -/
def SparesLog (y : RunM List SendMsg ν α) : Prop :=
  ∀ calls v, Maintains (At S x O lgs held calls v) (fun _ => StoppedAt S x O calls) y

end

section

variable {σ ν : Type} {S : Static σ} {x : Ctx} {O : List (Nat × Obs) → Prop} {lgs : List Log}
  {held : Prop} {calls : List LogCall} {v : σ} {s s' : St List SendMsg ν}

theorem At.stopped (h : At S x O lgs held calls v s) : StoppedAt S x O calls s :=
  ⟨h.calls, h.outside⟩

/-- Changes of anything else. -/
theorem At.of_eq (h : At S x O lgs held calls v s) (hhist : s'.proc.hist = s.proc.hist)
    (hval : s'.proc.loggers = s.proc.loggers)
    (hlgs : s'.heap.lists .loglst = s.heap.lists .loglst) : At S x O lgs held calls v s' where
  calls := hhist ▸ h.calls
  value hh := hval ▸ h.value hh
  outside := hhist ▸ h.outside
  loggers := hlgs.trans h.loggers

/-- An observation that is none of a callback. -/
theorem At.observe (hO : ∀ o hist, O hist → O (hist ++ [(x.lvl, o)]))
    (h : At S x O lgs held calls v s)
    {o : Obs} (ho : o.callOf S.lfun = none) :
    At S x O lgs held calls v (s.onProc (Proc.observe x.lvl o)) where
  calls := by
    show shown (Obs.callOf S.lfun) x.lvl (s.proc.hist ++ [(x.lvl, o)]) = calls
    rw [shown_append, ho, Option.toList_none, List.append_nil]
    exact h.calls
  value := h.value
  outside := hO o _ h.outside
  loggers := h.loggers

theorem sparesLog_sendMsg (m : SendMsg) :
    SparesLog S x O lgs held (sendMsg x m : RunM List SendMsg ν Unit) := by
  intro calls v s hs
  have hgrant : s.proc.granted.hist = s.proc.hist ∧ s.proc.granted.loggers = s.proc.loggers := by
    simp only [Proc.granted, Proc.loggers]
    split <;> simp
  have hs1 : At S x O lgs held calls v (s.onProc Proc.granted) := hs.of_eq hgrant.1 hgrant.2 rfl
  obtain ⟨_, _, -, h⟩ | ⟨-, h⟩ | ⟨data, -, -, h⟩ := sendMsg_apply x m s <;> rw [h]
  · exact hs.stopped
  · exact hs1.stopped
  · refine hs1.of_eq (Proc.hist_fwrite data _) ?_ rfl
    show (s.proc.granted.fwrite data).loggers = s.proc.granted.loggers
    rw [Proc.fwrite_eq]
    rfl

variable (hO : ∀ o hist, O hist → O (hist ++ [(x.lvl, o)]))
include hO

/-- Fixtures and tests leave the log of their run alone, and the variable as well, if
the runs that they make do: what a forked test makes of the variable is lost. -/
theorem testClosed_at {call : ν → RunM List SendMsg ν Unit}
    (hcall : ∀ c, SparesLog S x O lgs held (call c)) :
    TestClosed x call fun {α} (y : RunM List SendMsg ν α) => SparesLog S x O lgs held y where
  pure a _ _ := Maintains.pure a
  throw e _ _ _ := Maintains.throw fun _ hs => hs.stopped
  read p _ _ := Maintains.read p
  bind hy hf calls v :=
    (seqClosed_maintains fun _ _ _ hs => hs.stopped).bind (hy calls v) fun a ha => hf a ha calls v
  forList _ _ hb calls v s hs := Maintains.findSomeM (fun f _ => hb f calls v) s hs
  fork p hp calls v s hs := by
    have hchild := hp calls v (s.onProc fun q => { q with killIn := x.env.kill s.now })
      (hs.of_eq rfl rfl rfl)
    simp only [forkChild]
    cases hres : p (s.onProc fun q => { q with killIn := x.env.kill s.now }) with
    | ok a c =>
        rw [hres] at hchild
        exact ⟨hchild.calls, hs.value, hchild.outside, hs.loggers⟩
    | error e c =>
        rw [hres] at hchild
        cases e with
        | exited code => exact ⟨hchild.calls, hs.value, hchild.outside, hs.loggers⟩
        | signaled sig => exact ⟨hchild.calls, hs.value, hchild.outside, hs.loggers⟩
        | undefined => exact ⟨hchild.calls, hchild.outside⟩
        | diverged => exact ⟨hchild.calls, hchild.outside⟩
        | brokenOff => exact ⟨hchild.calls, hchild.outside⟩
  kill calls v := by
    refine Maintains.bind (Maintains.read _) fun k => ?_
    rcases k with _ | ⟨_ | n, sig⟩
    · exact Maintains.pure ()
    · exact Maintains.throw fun _ hs => hs.stopped
    · exact Maintains.update fun _ hs => hs.of_eq rfl rfl rfl
  send := sparesLog_sendMsg
  receive w calls v s hs := by
    rw [receiveTestResult_apply]
    generalize (s.proc.getPipe.map fun f => rcvOutcome (Wire.punpack x.cfg f.content)) = r
    rcases r with _ | e | rmsg
    · exact hs.stopped
    · exact hs.stopped
    · refine hs.of_eq (Proc.hist_renew _) ?_ rfl
      simp only [St.onProc, Proc.loggers, Proc.renew]
      split <;> rfl
  assertion _ _ _ := Maintains.update fun _ hs => hs.observe hO rfl
  fixture _ _ _ _ := Maintains.update fun _ hs => hs.observe hO rfl
  body _ _ _ _ := Maintains.update fun _ hs => hs.observe hO rfl
  setjmp _ _ := Maintains.update fun _ hs => hs.of_eq rfl rfl rfl
  alarm _ _ _ := Maintains.update fun _ hs => hs.of_eq rfl rfl rfl
  call := hcall

end

/-! ## events -/

section

variable {σ ν : Type} (S : Static σ) (x : Ctx) (O : List (Nat × Obs) → Prop) (lgs : List Log)
  (held : Prop)

/-- A state of a run whose calls so far, together with the variable, are as `C` says. -/
def InRun (C : List LogCall → σ → Prop) (s : St List SendMsg ν) : Prop :=
  ∃ calls v, At S x O lgs held calls v s ∧ C calls v

/-- A state in which a run ends. -/
structure Ended (s : St List SendMsg ν) : Prop where
  owned : S.Owned (callsOf S.lfun x.lvl s.proc.hist)
  outside : O s.proc.hist

end

section

variable {σ ν : Type} {S : Static σ} {x : Ctx} {O : List (Nat × Obs) → Prop} {lgs : List Log}
  {held : Prop} {C C' : List LogCall → σ → Prop} {s : St List SendMsg ν}

theorem InRun.ended (hC : ∀ calls v, C calls v → S.Owned calls) (h : InRun S x O lgs held C s) :
    Ended S x O s := by
  obtain ⟨calls, v, hat, hcalls⟩ := h
  exact ⟨hat.calls ▸ hC calls v hcalls, hat.outside⟩

variable (hO : ∀ o hist, O hist → O (hist ++ [(x.lvl, o)]))
include hO

/-- Another callback is called. -/
theorem InRun.notify_other (evt : ClEvent) (obj : LogObj) {lg : Log} (hl : lg.lfun ≠ S.lfun)
    (h : InRun S x O lgs held C s) : InRun S x O lgs held C
      (s.onProc fun p => p.notify x evt obj s.sr.stats s.sr.resultlst lg) := by
  obtain ⟨calls, v, hat, hcalls⟩ := h
  refine ⟨calls, v, ⟨?_, fun hh => ?_, hO _ _ hat.outside, hat.loggers⟩, hcalls⟩
  · show shown (Obs.callOf S.lfun) x.lvl (s.proc.hist ++ [(x.lvl, _)]) = calls
    rw [shown_append, Obs.callOf, if_neg hl, Option.toList_none, List.append_nil]
    exact hat.calls
  · show S.get (s.proc.notify x evt obj s.sr.stats s.sr.resultlst lg).loggers = v
    rw [Proc.loggers_notify, S.other _ hl, hat.value hh]

/-- The callback itself is called. -/
theorem InRun.notify_own {evt : ClEvent} (obj : LogObj) {lg : Log} (hl : lg.lfun = S.lfun)
    (hheld : held) (hstep : ∀ calls v c, C calls v → c.evt = evt → S.val c = S.step evt c.clock v →
      C' (calls ++ [c]) (S.val c)) (h : InRun S x O lgs held C s) : InRun S x O lgs held C'
      (s.onProc fun p => p.notify x evt obj s.sr.stats s.sr.resultlst lg) := by
  obtain ⟨calls, v, hat, hcalls⟩ := h
  have hval : S.get (s.proc.notify x evt obj s.sr.stats s.sr.resultlst lg).loggers =
      S.step evt (x.env.logClock s.proc.hist.length) v := by
    rw [Proc.loggers_notify, hl, S.own, hat.value hheld]
  refine ⟨_, _, ⟨?_, fun _ => rfl, hO _ _ hat.outside, hat.loggers⟩, hstep calls v
    ⟨lg, evt, obj, s.sr.stats, s.sr.resultlst,
      (s.proc.notify x evt obj s.sr.stats s.sr.resultlst lg).numTestsRun,
      x.env.logClock s.proc.hist.length,
      (s.proc.notify x evt obj s.sr.stats s.sr.resultlst lg).xmlStatics⟩ hcalls rfl hval⟩
  show shown (Obs.callOf S.lfun) x.lvl (s.proc.hist ++ [(x.lvl, _)]) = _
  rw [shown_append, Obs.callOf, if_pos hl, Option.toList_some]
  exact congrArg (· ++ _) hat.calls

variable (hown : ∀ calls v, C calls v → S.Owned calls)
include hown

/-- The call of one callback. -/
theorem leads_callLfun_other {evt : ClEvent} (obj : LogObj) {lg : Log} (hl : lg.lfun ≠ S.lfun) :
    Leads (InRun S x O lgs held C) (fun _ => InRun S x O lgs held C) (fun _ => Ended S x O)
      (callLfun x lg evt obj : RunM List SendMsg ν Unit) := by
  intro s hs
  rw [callLfun_apply]
  have hnext := hs.notify_other hO evt obj hl
  cases lfunStop lg.lfun obj with
  | none => exact hnext
  | some e => exact hnext.ended hown

omit hown in
theorem leads_callLfun_own {evt : ClEvent} (obj : LogObj) {lg : Log} (hl : lg.lfun = S.lfun)
    (hheld : held) (hown' : ∀ calls v, C' calls v → S.Owned calls)
    (hstep : ∀ calls v c, C calls v → c.evt = evt → S.val c = S.step evt c.clock v →
      C' (calls ++ [c]) (S.val c)) :
    Leads (InRun S x O lgs held C) (fun _ => InRun S x O lgs held C') (fun _ => Ended S x O)
      (callLfun x lg evt obj : RunM List SendMsg ν Unit) := by
  intro s hs
  rw [callLfun_apply]
  have hnext := hs.notify_own hO obj hl hheld hstep
  cases lfunStop lg.lfun obj with
  | none => exact hnext
  | some e => exact hnext.ended hown'

/-- An event is told to loggers that do not have the callback. -/
theorem leads_calls_other {evt : ClEvent} (obj : LogObj) {ls : List Log}
    (hls : S.lfun ∉ ls.map Log.lfun) :
    Leads (InRun S x O lgs held C) (fun _ => InRun S x O lgs held C) (fun _ => Ended S x O)
      (ls.findSomeM? fun lg => do
        callLfun x lg evt obj
        pure none : RunM List SendMsg ν (Option Unit)) := by
  refine Maintains.findSomeM fun lg hlg => Leads.bind (leads_callLfun_other hO hown obj ?_) fun _ =>
    Leads.pure fun _ hs => hs
  rintro he
  exact hls (he ▸ List.mem_map_of_mem hlg)

/-- An event is told to the loggers one after the other; at most one of them has the
callback. -/
theorem leads_calls {evt : ClEvent} (obj : LogObj)
    (hown' : ∀ calls v, C' calls v → S.Owned calls)
    (hstep : ∀ calls v c, C calls v → c.evt = evt → S.val c = S.step evt c.clock v →
      C' (calls ++ [c]) (S.val c)) {ls : List Log} (hnd : (ls.map Log.lfun).Nodup)
    (hmem : S.lfun ∈ ls.map Log.lfun) (hheld : held) :
    Leads (InRun S x O lgs held C) (fun _ => InRun S x O lgs held C') (fun _ => Ended S x O)
      (ls.findSomeM? fun lg => do
        callLfun x lg evt obj
        pure none : RunM List SendMsg ν (Option Unit)) := by
  induction ls with
  | nil => cases hmem
  | cons lg ls ih =>
      rw [List.map_cons, List.nodup_cons] at hnd
      have hbody : ∀ {J : St List SendMsg ν → Prop},
          Leads (InRun S x O lgs held C) (fun _ => J) (fun _ => Ended S x O)
            (callLfun x lg evt obj : RunM List SendMsg ν Unit) →
          Leads J (fun _ => InRun S x O lgs held C') (fun _ => Ended S x O)
            (ls.findSomeM? fun lg => do
              callLfun x lg evt obj
              pure none : RunM List SendMsg ν (Option Unit)) →
          Leads (InRun S x O lgs held C) (fun _ => InRun S x O lgs held C') (fun _ => Ended S x O)
            ((lg :: ls).findSomeM? fun lg => do
              callLfun x lg evt obj
              pure none : RunM List SendMsg ν (Option Unit)) := by
        intro J hcall hrest
        refine Leads.bind (J := fun r s => r = none ∧ J s)
          (Leads.bind hcall fun _ => Leads.pure fun _ hs => ⟨rfl, hs⟩) fun r => ?_
        refine Leads.of_imp fun hr => ?_
        subst hr
        exact hrest
      by_cases hl : lg.lfun = S.lfun
      · exact hbody (leads_callLfun_own hO obj hl hheld hown' hstep)
          (leads_calls_other hO hown' obj (hl ▸ hnd.1))
      · refine hbody (leads_callLfun_other hO hown obj hl) (ih hnd.2 ?_)
        exact (List.mem_cons.mp hmem).resolve_left (Ne.symm hl)

omit hO in
/-- An event is told to the loggers of the run. -/
theorem leads_sendEvt {evt : ClEvent} {obj : LogObj} {J : St List SendMsg ν → Prop}
    (h : Leads (InRun S x O lgs held C) (fun _ => J) (fun _ => Ended S x O)
      (lgs.findSomeM? fun lg => do
        callLfun x lg evt obj
        pure none : RunM List SendMsg ν (Option Unit))) :
    Leads (InRun S x O lgs held C) (fun _ => J) (fun _ => Ended S x O)
      (srunnerSendEvt x obj evt : RunM List SendMsg ν Unit) := by
  refine Leads.bind (J := fun _ => J) (fun s hs => ?_) fun _ => Leads.pure fun _ hs => hs
  have hlgs : s.heap.lists .loglst = lgs := by
    obtain ⟨_, _, hat, -⟩ := hs
    exact hat.loggers
  rw [forLogs, read_bind]
  by_cases hl : s.sr.loglst = true
  · rw [if_pos hl]
    have hlist : ∀ body : Log → RunM List SendMsg ν (Option Unit),
        forList x .loglst body s = lgs.findSomeM? body s := by
      intro body
      show (s.heap.lists .loglst).findSomeM? body s = _
      rw [hlgs]
    rw [hlist]
    exact h s hs
  · rw [if_neg hl]
    exact hs.ended hown

end

/-! ## runs -/

section

variable {σ ν : Type} {S : Static σ} {x : Ctx} {O : List (Nat × Obs) → Prop} {lgs : List Log}
  {held : Prop} {C : List LogCall → σ → Prop}

theorem SparesLog.inRun {y : RunM List SendMsg ν α} (h : SparesLog S x O lgs held y)
    (hown : ∀ calls v, C calls v → S.Owned calls) :
    Maintains (InRun S x O lgs held C) (fun _ => Ended S x O) y := by
  rintro s ⟨calls, v, hat, hcalls⟩
  have hend := h calls v s hat
  cases hy : y s with
  | ok a s' =>
      rw [hy] at hend
      exact ⟨calls, v, hend, hcalls⟩
  | error e s' =>
      rw [hy] at hend
      exact ⟨hend.calls ▸ hown calls v hcalls, hend.outside⟩

theorem InRun.of_eq {s s' : St List SendMsg ν} (h : InRun S x O lgs held C s)
    (hhist : s'.proc.hist = s.proc.hist) (hval : s'.proc.loggers = s.proc.loggers)
    (hlgs : s'.heap.lists .loglst = s.heap.lists .loglst) : InRun S x O lgs held C s' := by
  obtain ⟨calls, v, hat, hcalls⟩ := h
  exact ⟨calls, v, hat.of_eq hhist hval hlgs, hcalls⟩

variable (hO : ∀ o hist, O hist → O (hist ++ [(x.lvl, o)]))
  (hown : ∀ calls v, C calls v → S.Owned calls) (hnd : (lgs.map Log.lfun).Nodup)
  (hclosed : S.lfun ∈ lgs.map Log.lfun → held ∧ ∀ calls v c, C calls v → c.evt ≠ .initlogSr →
    S.val c = S.step c.evt c.clock v → C (calls ++ [c]) (S.val c))
include hO hown hnd hclosed

/-- Every event but the first goes on with the log, if there is one. -/
theorem maintains_sendEvt {evt : ClEvent} (hevt : evt ≠ .initlogSr) (obj : LogObj) :
    Maintains (InRun S x O lgs held C) (fun _ => Ended S x O)
      (srunnerSendEvt x obj evt : RunM List SendMsg ν Unit) := by
  by_cases hmem : S.lfun ∈ lgs.map Log.lfun
  · obtain ⟨hheld, hstep⟩ := hclosed hmem
    refine leads_sendEvt hown (leads_calls hO hown obj hown (fun calls v c hcalls he hval => ?_) hnd
      hmem hheld)
    subst he
    exact hstep calls v c hcalls hevt hval
  · exact leads_sendEvt hown (leads_calls_other hO hown obj hmem)

/-- The suites of a run. -/
theorem suiteSteps_inRun {call : ν → RunM List SendMsg ν Unit}
    (hcall : ∀ c, SparesLog S x O lgs held (call c)) :
    SuiteSteps x call fun {α} (y : RunM List SendMsg ν α) =>
      Maintains (InRun S x O lgs held C) (fun _ => Ended S x O) y where
  toSeqClosed := seqClosed_maintains fun _ _ _ hs => hs.ended hown
  forList _ _ hb s hs := Maintains.findSomeM (fun f _ => hb f) s hs
  setup _ _ _ _ _ := ((testClosed_at hO hcall).srunnerRunSetup _ _ _ _ _).inRun hown
  teardown _ _ _ := ((testClosed_at hO hcall).srunnerRunTeardown _ _ _).inRun hown
  test _ _ _ := ((testClosed_at hO hcall).tcaseRunTfun _ _ _).inRun hown
  fstat _ := Maintains.update fun _ hs => hs.of_eq rfl rfl rfl
  addFailure _ _ := Maintains.update fun _ hs => hs.of_eq rfl rfl rfl
  occasion _ := Maintains.update fun _ hs => hs.of_eq rfl rfl rfl
  iter _ _ _ := Maintains.update fun _ ⟨calls, v, hat, hcalls⟩ =>
    ⟨calls, v, hat.observe hO rfl, hcalls⟩
  event obj _ hevt := maintains_sendEvt hO hown hnd hclosed hevt.1 obj
  tagLst a l := Maintains.update fun s hs => by
    have hne : LRef.loglst ≠ .tagLst a := fun he => nomatch he
    exact hs.of_eq rfl rfl (St.lists_setList_of_ne hne _ _)
  tcase _ := Maintains.update fun _ ⟨calls, v, hat, hcalls⟩ =>
    ⟨calls, v, hat.observe hO rfl, hcalls⟩

/-- What a run does after its first event. -/
theorem maintains_afterInit {call : ν → RunM List SendMsg ν Unit}
    (hcall : ∀ c, SparesLog S x O lgs held (call c)) (a : RunArgs) :
    Maintains (InRun S x O lgs held C) (fun _ => Ended S x O) (do
      logSrunnerStart x
      srunnerIterateSuites x call a
      finishRun x : RunM List SendMsg ν Unit) := by
  have hsteps := suiteSteps_inRun hO hown hnd hclosed hcall
  have hevent : ∀ obj evt, evt ≠ .initlogSr → Maintains (InRun S x O lgs held C)
      (fun _ => Ended S x O) (srunnerSendEvt x obj evt : RunM List SendMsg ν Unit) :=
    fun obj evt hevt => maintains_sendEvt hO hown hnd hclosed hevt obj
  have hclose : Maintains (InRun S x O lgs held C) (fun _ => Ended S x O)
      (forLogs x fun _ => pure (none : Option Unit) : RunM List SendMsg ν (Option Unit)) :=
    Maintains.bind (Maintains.read _) fun _ => Maintains.ite
      (hsteps.forList .loglst (fun _ => pure none) fun _ => Maintains.pure none)
      (Maintains.throw fun _ hs => hs.ended hown)
  refine Maintains.bind (hevent _ _ (by decide)) fun _ =>
    Maintains.bind (hsteps.srunnerIterateSuites a) fun _ =>
      Maintains.bind (hevent _ _ (by decide)) fun _ =>
        Maintains.bind (Maintains.bind (hevent _ _ (by decide)) fun _ =>
          Maintains.bind hclose fun _ => Maintains.update fun _ hs => hs.of_eq rfl rfl rfl) fun _ =>
            Maintains.bind ?_ fun _ => Maintains.update fun _ hs => hs.of_eq rfl rfl rfl
  exact Maintains.bind (Maintains.read _) fun _ =>
    Maintains.ite (Maintains.update fun _ hs => hs.of_eq rfl rfl rfl)
      (Maintains.bind (Maintains.read _) fun _ =>
        Maintains.ite (Maintains.update fun _ hs => hs.of_eq rfl rfl rfl)
          (Maintains.throw fun _ hs => hs.ended hown))

end

section

variable {σ ν : Type} {S : Static σ} {x : Ctx} {O : List (Nat × Obs) → Prop} {held : Prop}
  {call : ν → RunM List SendMsg ν Unit} {a : RunArgs} {s : St List SendMsg ν}

theorem sparesLog_setupPipe {lgs : List Log} :
    SparesLog S x O lgs held (setupPipe : RunM List SendMsg ν Unit) := fun _ _ =>
  Maintains.bind (Maintains.read _) fun _ =>
    Maintains.ite (Maintains.update fun _ hs => hs.of_eq rfl rfl rfl)
      (Maintains.bind (Maintains.read _) fun _ =>
        Maintains.ite (Maintains.update fun _ hs => hs.of_eq rfl rfl rfl)
          (Maintains.throw fun _ hs => hs.stopped))

variable (hO : ∀ o hist, O hist → O (hist ++ [(x.lvl, o)]))
  (hcall : ∀ c, SparesLog S x O (registered x s.sr a.printMode) held (call c))
  (howned : S.Owned (callsOf S.lfun x.lvl s.proc.hist)) (hout : O s.proc.hist)
include hO hcall howned hout

/-- A run from its first event on, if what the first event makes of the calls and the
variable is as `C` says. -/
theorem leads_srunnerRunTagged {C : List LogCall → σ → Prop}
    (hown : ∀ calls v, C calls v → S.Owned calls)
    (hclosed : S.lfun ∈ (registered x s.sr a.printMode).map Log.lfun →
      held ∧ ∀ calls v c, C calls v → c.evt ≠ .initlogSr → S.val c = S.step c.evt c.clock v →
        C (calls ++ [c]) (S.val c))
    (hinit : Leads (InRun S x O (registered x s.sr a.printMode) held fun calls v =>
        calls = callsOf S.lfun x.lvl s.proc.hist ∧ v = S.get s.proc.loggers)
      (fun _ => InRun S x O (registered x s.sr a.printMode) held C) (fun _ => Ended S x O)
      (srunnerSendEvt x .null .initlogSr : RunM List SendMsg ν Unit)) :
    Leads (fun t => t = s) (fun _ => InRun S x O (registered x s.sr a.printMode) held C)
      (fun _ => Ended S x O) (srunnerRunTagged x call a) := by
  rintro t rfl
  have hrun : srunnerRunTagged x call a t = (do
      setupPipe
      srunnerInitLogging x a.printMode
      logSrunnerStart x
      srunnerIterateSuites x call (effectiveArgs x.env a)
      finishRun x : RunM List SendMsg ν Unit) (runStart x t) := by
    rw [srunnerRunTagged_split]
    simp only [startRun, bind_assoc]
  rw [hrun]
  have hstart : At S x O (t.heap.lists .loglst) held (callsOf S.lfun x.lvl t.proc.hist)
      (S.get t.proc.loggers) (runStart x t) := ⟨rfl, fun _ => rfl, hout, rfl⟩
  have hbegin : Leads (fun u => u = runStart x t)
      (fun _ => InRun S x O (registered x t.sr a.printMode) held C) (fun _ => Ended S x O) (do
        setupPipe
        srunnerInitLogging x a.printMode : RunM List SendMsg ν Unit) := by
    refine Leads.bind (J := fun _ u => u.sr = t.sr ∧ At S x O (t.heap.lists .loglst) held
      (callsOf S.lfun x.lvl t.proc.hist) (S.get t.proc.loggers) u) ?_ fun _ => ?_
    · rintro u rfl
      have hpipe := sparesLog_setupPipe _ _ (runStart x t) hstart
      cases hsetup : (setupPipe : RunM List SendMsg ν Unit) (runStart x t) with
      | ok _ u =>
          rw [hsetup] at hpipe
          exact ⟨congrArg (fun m => m.2.1) (keeps_setupPipe.of_ok hsetup), hpipe⟩
      | error e u =>
          rw [hsetup] at hpipe
          exact ⟨hpipe.calls ▸ howned, hpipe.outside⟩
    · rintro u ⟨hsr, hat⟩
      rw [srunnerInitLogging_apply, hsr]
      exact hinit _ ⟨_, _, ⟨hat.calls, hat.value, hat.outside, St.lists_setList_self ..⟩, rfl, rfl⟩
  have hrest := maintains_afterInit hO hown (nodup_registered x t.sr a.printMode) hclosed hcall
    (effectiveArgs x.env a)
  have hall := Leads.bind hbegin fun _ => hrest
  simp only [bind_assoc] at hall
  exact hall _ rfl

variable (S x O held call a s) in
/-- **A run adds one log to those of its process**, wherever it ends, if it starts with
the variable as good as new; without the logger the run leaves the variable alone. -/
theorem srunnerRunTagged_logs
    (hheld : S.lfun ∈ (registered x s.sr a.printMode).map Log.lfun →
      held ∧ S.Fresh (S.get s.proc.loggers)) :
    Leads (fun t => t = s) (fun _ s' => Ended S x O s' ∧
        (S.lfun ∉ (registered x s.sr a.printMode).map Log.lfun → held →
          S.get s'.proc.loggers = S.get s.proc.loggers))
      (fun _ => Ended S x O) (srunnerRunTagged x call a) := by
  by_cases hmem : S.lfun ∈ (registered x s.sr a.printMode).map Log.lfun
  · obtain ⟨hh, hfresh⟩ := hheld hmem
    have hown : ∀ calls v, S.Open calls v → S.Owned calls := fun _ _ h => h.owned
    have hrun := leads_srunnerRunTagged hO hcall howned hout hown
      (fun _ => ⟨hh, fun _ _ _ h hevt hval => h.call hevt hval⟩)
      (leads_sendEvt (fun calls v h => h.1 ▸ howned) (leads_calls hO (fun calls v h => h.1 ▸ howned)
        .null hown (fun calls v c h hevt hval => ?_) (nodup_registered ..) hmem hh))
    · exact hrun.weaken (fun _ h => h) (fun _ _ h => ⟨h.ended hown, fun hno => absurd hmem hno⟩)
        fun _ _ h => h
    · obtain ⟨rfl, rfl⟩ := h
      exact howned.init hevt (hval.trans (S.fresh _ _ hfresh))
  · have hown : ∀ calls v, (calls = callsOf S.lfun x.lvl s.proc.hist ∧ v = S.get s.proc.loggers) →
        S.Owned calls := fun calls v h => h.1 ▸ howned
    have hrun := leads_srunnerRunTagged hO hcall howned hout hown (fun h => absurd h hmem)
      (leads_sendEvt hown (leads_calls_other hO hown .null hmem))
    refine hrun.weaken (fun _ h => h) (fun _ s' h => ⟨h.ended hown, fun _ hh => ?_⟩) fun _ _ h => h
    obtain ⟨calls, v, hat, -, rfl⟩ := h
    exact hat.value hh

end

/-! ## runs inside a run -/

/-- Calls of runs that do not share the variable with the run around them and find it
fresh, if they use it. -/
def Static.Apart {σ : Type} (S : Static σ) {L : Type → Type} {β ν : Type} [Lists L] (x : Ctx)
    (c : NestedRun) (s : St L β ν) : Prop :=
  S.lfun ∈ (registered (x.nested c.env) c.sr c.args.printMode).map Log.lfun →
    S.lfun ∉ (Lists.elems (s.heap.lists .loglst)).map Log.lfun ∧ S.Fresh (S.get s.proc.loggers)

/-- The logs of the other runs have their variables to themselves. -/
def Static.OwnedOutside {σ : Type} (S : Static σ) (lvl : Nat) (hist : List (Nat × Obs)) : Prop :=
  ∀ l, l ≠ lvl → S.Owned (callsOf S.lfun l hist)

section

variable {σ : Type} {S : Static σ} {x : Ctx} {s : St List SendMsg NestedRun}

theorem Static.OwnedOutside.observe {lvl : Nat} (o : Obs) (hist : List (Nat × Obs))
    (h : S.OwnedOutside lvl hist) : S.OwnedOutside lvl (hist ++ [(lvl, o)]) := by
  intro l hl
  rw [callsOf, shown, obsAt_append_of_ne (Ne.symm hl)]
  exact h l hl

/-- A nested run that is apart from the run around it. -/
theorem runNested_at {lgs : List Log} {calls : List LogCall} {v : σ} {c : NestedRun}
    (hc : S.Apart x c s)
    (hs : At S x (S.OwnedOutside x.lvl) lgs (S.lfun ∈ lgs.map Log.lfun) calls v s) :
    Leads (fun t => t = s)
      (fun _ => At S x (S.OwnedOutside x.lvl) lgs (S.lfun ∈ lgs.map Log.lfun) calls v)
      (fun _ => StoppedAt S x (S.OwnedOutside x.lvl) calls) (runNested x c) := by
  rintro t rfl
  have hlvl : x.lvl + 1 ≠ x.lvl := Nat.succ_ne_self _
  have hrun := srunnerRunTagged_logs S (x.nested c.env) (fun _ => True) True Empty.elim c.args
    (c.start t.proc : St List SendMsg Empty)
    (fun _ _ h => h) (fun c => c.elim) (hs.outside (x.lvl + 1) hlvl) trivial
    (fun hmem => ⟨trivial, (hc hmem).2⟩) _ rfl
  have hother : ∀ l, x.lvl + 1 ≠ l → ∀ s', endState (runNested x c t) = s' →
      obsAt l s'.proc.hist = obsAt l t.proc.hist := by
    rintro l hl _ rfl
    exact (runNested_obsAt hl _ c).endState (s := t) rfl (fun _ h => h) fun _ _ h => h.1
  have hcalls : ∀ s', endState (runNested x c t) = s' →
      callsOf S.lfun x.lvl s'.proc.hist = calls := by
    intro s' hs'
    rw [callsOf, shown, hother x.lvl hlvl s' hs']
    exact hs.calls
  have houtside : ∀ s', endState (runNested x c t) = s' →
      S.Owned (callsOf S.lfun (x.lvl + 1) s'.proc.hist) → S.OwnedOutside x.lvl s'.proc.hist := by
    intro s' hs' howned l hl
    by_cases he : x.lvl + 1 = l
    · exact he ▸ howned
    · rw [callsOf, shown, hother l he s' hs']
      exact hs.outside l hl
  simp only [runNested] at hcalls houtside ⊢
  cases hres : srunnerRunTagged (x.nested c.env) Empty.elim c.args
      (c.start t.proc : St List SendMsg Empty) with
  | ok u t' =>
      rw [hres] at hrun hcalls houtside
      refine ⟨hcalls _ rfl, fun hmem => ?_, houtside _ rfl hrun.1.owned, hs.loggers⟩
      -- a run around it that uses the variable makes only runs that do not
      have hno : S.lfun ∉ (registered (x.nested c.env) c.sr c.args.printMode).map Log.lfun := by
        intro hin
        refine (hc hin).1 ?_
        show S.lfun ∈ (t.heap.lists .loglst).map Log.lfun
        rw [hs.loggers]
        exact hmem
      exact (hrun.2 hno trivial).trans (hs.value hmem)
  | error e t' =>
      rw [hres] at hrun hcalls houtside
      exact ⟨hcalls _ rfl, houtside _ rfl hrun.owned⟩

end

/-- Calls of runs that share no static variable of a logger with a run around them or
before them. -/
def Unshared {L : Type → Type} {β ν : Type} [Lists L] (x : Ctx) (c : NestedRun) (s : St L β ν) :
    Prop :=
  tapStatic.Apart x c s ∧ xmlStatic.Apart x c s

instance {L : Type → Type} {β ν : Type} [Lists L] (x : Ctx) (c : NestedRun) (s : St L β ν) :
    Decidable (Unshared x c s) :=
  inferInstanceAs (Decidable ((_ → _ ∧ True) ∧ (_ → _ ∧ s.proc.xmlStatics.t = .empty)))

section

variable {σ : Type} {S : Static σ} {x : Ctx}

theorem sparesLog_guarded {P : NestedRun → St List SendMsg NestedRun → Prop}
    [∀ c s, Decidable (P c s)] (hP : ∀ c s, P c s → S.Apart x c s) (lgs : List Log)
    (c : NestedRun) :
    SparesLog S x (S.OwnedOutside x.lvl) lgs (S.lfun ∈ lgs.map Log.lfun)
      (guarded P (runNested x) c) := by
  intro calls v s hs
  by_cases hc : P c s
  · rw [guarded, if_pos hc]
    exact runNested_at (hP c s hc) hs s rfl
  · rw [guarded, if_neg hc]
    exact hs.stopped

/-- A run of the abstract machine. -/
theorem srunnerRunTagged_owned {P : NestedRun → St List SendMsg NestedRun → Prop}
    [∀ c s, Decidable (P c s)] (hP : ∀ c s, P c s → S.Apart x c s) {a : RunArgs}
    {s : St List SendMsg NestedRun} (howned : ∀ l, S.Owned (callsOf S.lfun l s.proc.hist))
    (hfresh : S.lfun ∈ (registered x s.sr a.printMode).map Log.lfun →
      S.Fresh (S.get s.proc.loggers)) (l : Nat) :
    S.Owned (callsOf S.lfun l
      (endState (srunnerRunTagged x (guarded P (runNested x)) a s)).proc.hist) := by
  have hrun := srunnerRunTagged_logs S x _ _ _ a s (fun o hist h => h.observe o hist)
    (sparesLog_guarded hP _) (howned x.lvl) (fun k _ => howned k) fun hmem => ⟨hmem, hfresh hmem⟩
  have hend : Ended S x (S.OwnedOutside x.lvl)
      (endState (srunnerRunTagged x (guarded P (runNested x)) a s)) :=
    (hrun.weaken (fun _ h => h) (fun _ _ h => h.1) fun _ _ h => h).endState rfl
  by_cases hl : l = x.lvl
  · exact hl ▸ hend.owned
  · exact hend.outside l hl

end

/-! ## sessions -/

/-- A run that a program makes: its environment, its arguments and its runner. -/
structure Job where
  env : Env
  args : RunArgs
  heap : Heap CkList NestedRun
  sr : SRunner CkList
  now : When

namespace Job

variable (cfg : Config) (j : Job) (p : Proc UInt8)

def ctx : Ctx := ⟨cfg, j.env, 0⟩

def start : St CkList UInt8 NestedRun := ⟨p, j.heap, j.sr, j.now⟩

def run : EStateM.Result Stop (St CkList UInt8 NestedRun) Unit :=
  srunnerRunTagged (j.ctx cfg) (runNested (j.ctx cfg)) j.args (j.start p)

/-- The run shares no static variable of a logger with one before it, and neither do
the runs that it makes. -/
structure Alone : Prop where
  date : .xmlLfun ∈ (registered (j.ctx cfg) j.sr j.args.printMode).map Log.lfun →
    p.xmlStatics.t = .empty
  calls : ∀ s', srunnerRunTagged (j.ctx cfg) (guarded (Unshared (j.ctx cfg))
    (runNested (j.ctx cfg)))
    j.args (j.start p) ≠ .error .brokenOff s'

end Job

/-- The processes that have made any number of such runs, one after the other. -/
inductive Session (cfg : Config) : Proc UInt8 → Prop where
  | start {p : Proc UInt8} (hhist : p.hist = []) (h1 : p.sendFile1 = none)
      (h2 : p.sendFile2 = none) : Session cfg p
  | run {p : Proc UInt8} {j : Job} {s : St CkList UInt8 NestedRun} (hp : Session cfg p)
      (hj : j.Alone cfg p) (h : j.run cfg p = .ok () s) : Session cfg s.proc

section

variable {cfg : Config} {p : Proc UInt8} {j : Job}

/-- A run is one of the abstract machine, with calls that are guarded. -/
theorem Job.run_rel (hp : Legible cfg p) (hj : j.Alone cfg p) :
    ∃ t, StRel cfg (j.start p) t ∧ Agree (StRel cfg) (j.run cfg p)
      (srunnerRunTagged (j.ctx cfg) (guarded (Unshared (j.ctx cfg)) (runNested (j.ctx cfg))) j.args
        t) := by
  obtain ⟨t, hst⟩ := Legible.exists_stRel (s := j.start p) hp
  refine ⟨t, hst, ?_⟩
  have hguard := srunnerRunTagged_of_guarded (walksAlike_ckList (j.ctx cfg))
    (fun _ _ _ => (rfl : runNested (j.ctx cfg) _ _ = _)) hj.calls
  rw [Job.run, ← hguard]
  refine sim_srunnerRunTagged (x := j.ctx cfg) (fun c => keeps_guarded (keeps_runNested _ c))
    (fun c => sim_guarded (fun s t hst => ?_) (sim_runNested _ c)) j.args _ _ hst
  cases hst with
  | mk _ _ => exact Iff.rfl

theorem Session.legible (hp : Session cfg p) : Legible cfg p := by
  induction hp with
  | start _ h1 h2 => exact legible_of_closed h1 h2
  | run _ hj h ih =>
      obtain ⟨t, -, hagree⟩ := Job.run_rel ih hj
      rw [h] at hagree
      generalize srunnerRunTagged _ _ _ t = r at hagree
      cases hagree with
      | ok _ hst => exact hst.legible

/-- A run keeps the logs of the process apart. -/
theorem Job.run_owned {σ : Type} {S : Static σ}
    (hS : ∀ (c : NestedRun) (s : St List SendMsg NestedRun), Unshared (j.ctx cfg) c s →
      S.Apart (j.ctx cfg) c s)
    (hfresh : S.lfun ∈ (registered (j.ctx cfg) j.sr j.args.printMode).map Log.lfun →
      S.Fresh (S.get p.loggers))
    (hp : Legible cfg p) (hj : j.Alone cfg p) (howned : ∀ l, S.Owned (callsOf S.lfun l p.hist))
    (l : Nat) : S.Owned (callsOf S.lfun l (endState (j.run cfg p)).proc.hist) := by
  obtain ⟨t, hst, hagree⟩ := Job.run_rel hp hj
  have hrun : ∀ l, S.Owned (callsOf S.lfun l (endState (srunnerRunTagged (j.ctx cfg)
      (guarded (Unshared (j.ctx cfg)) (runNested (j.ctx cfg))) j.args t)).proc.hist) := by
    cases hst with
    | mk _ _ => exact srunnerRunTagged_owned hS howned hfresh
  have hhist : (endState (srunnerRunTagged (j.ctx cfg)
      (guarded (Unshared (j.ctx cfg)) (runNested (j.ctx cfg))) j.args t)).proc.hist =
      (endState (j.run cfg p)).proc.hist := by
    generalize srunnerRunTagged _ _ _ t = r at hagree
    generalize j.run cfg p = r' at hagree
    cases hagree with
    | ok _ h => exact h.hist_eq
    | error _ h => exact h.hist_eq
  rw [← hhist]
  exact hrun l

theorem Session.owned (hp : Session cfg p) (l : Nat) :
    tapStatic.Owned (callsOf .tapLfun l p.hist) ∧ xmlStatic.Owned (callsOf .xmlLfun l p.hist) := by
  induction hp generalizing l with
  | start hhist _ _ =>
      rw [hhist]
      exact ⟨Static.owned_nil, Static.owned_nil⟩
  | run hp hj h ih =>
      have htap := Job.run_owned (S := tapStatic) (fun _ _ h => h.1)
          (fun _ => trivial) hp.legible hj
        (fun k => (ih k).1) l
      have hxml := Job.run_owned (S := xmlStatic) (fun _ _ h => h.2) hj.date hp.legible hj
        (fun k => (ih k).2) l
      rw [h] at htap hxml
      exact ⟨htap, hxml⟩

/-- **Every log belongs to one run**: in a process that makes any number of runs, one
after the other and one inside another, such that no run shares the static variable of
a logger with a run around it, or the date of the XML logger with one before it, the
calls of the TAP logger are those of logs that are numbered from `1` on, each with its
own number of tests as its plan, and the calls of the XML logger are those of logs that
are dated and timed by their own run. -/
theorem logs_own (hp : Session cfg p) (hj : j.Alone cfg p) (l : Nat) :
    (∃ logs : List (List LogCall),
      callsOf .tapLfun l (endState (j.run cfg p)).proc.hist = logs.flatten ∧
        ∀ log ∈ logs, TapLog log) ∧
      ∃ logs : List (List LogCall),
        callsOf .xmlLfun l (endState (j.run cfg p)).proc.hist = logs.flatten ∧
          ∀ log ∈ logs, XmlLog cfg log := by
  obtain ⟨tap, htap, htaps⟩ := Job.run_owned (S := tapStatic) (fun _ _ h => h.1) (fun _ => trivial)
    hp.legible hj (fun k => (hp.owned k).1) l
  obtain ⟨xml, hxml, hxmls⟩ := Job.run_owned (S := xmlStatic) (fun _ _ h => h.2) hj.date
    hp.legible hj (fun k => (hp.owned k).2) l
  exact ⟨⟨tap, htap, fun log hlog => tapLog_of_own (htaps log hlog)⟩,
    xml, hxml, fun log hlog => xmlLog_of_own cfg (hxmls log hlog)⟩

end

/-- A run of one test case with `CK_NOFORK`, on a given date. -/
def Sample.job (tests : List (TF NestedRun)) (date : String) (xmlFname tapFname : Option CStr) :
    Job :=
  let s := Sample.start [⟨fun _ => [], tests, none⟩] .nofork
  { env := { Sample.env with logClock := fun _ => ⟨some (.lit date), ⟨0, 0⟩, ⟨1, 0⟩⟩ }
    args := Sample.args
    heap := s.heap
    sr := { s.sr with xmlFname := xmlFname, tapFname := tapFname }
    now := s.now }

/-- A run with an XML log and a TAP log. -/
def Sample.firstJob : Job :=
  Sample.job [Sample.test []] "1970-01-01 00:00:00" (some (.lit "1.xml")) (some (.lit "1.tap"))

/-- A run with a TAP log. -/
def Sample.secondJob : Job :=
  Sample.job [Sample.test [], Sample.test [Sample.fail]] "1970-01-02 00:00:00" none
    (some (.lit "2.tap"))

/-- The two runs, one after the other. -/
theorem logs_own_twice :
    ∃ s s', Sample.firstJob.run Sample.cfg Sample.proc = .ok () s ∧
      Sample.secondJob.run Sample.cfg s.proc = .ok () s' ∧
      (callsOf .tapLfun 0 s'.proc.hist).countP (fun c => c.evt = .endT) = 3 ∧
      ∃ logs : List (List LogCall), callsOf .tapLfun 0 s'.proc.hist = logs.flatten ∧
        ∀ log ∈ logs, TapLog log := by
  let guardedRun (j : Job) (p : Proc UInt8) :
    EStateM.Result Stop (St CkList UInt8 NestedRun) Unit :=
    srunnerRunTagged (j.ctx Sample.cfg)
      (guarded (Unshared (j.ctx Sample.cfg)) (runNested (j.ctx Sample.cfg))) j.args (j.start p)
  have hcalls : ∀ {j p}, (returned (guardedRun j p)).isSome →
      ∀ s', guardedRun j p ≠ .error .brokenOff s' := by
    intro j p h s' he
    rw [he] at h
    cases h
  have hfirst : (returned (guardedRun Sample.firstJob Sample.proc)).isSome := by decide +kernel
  have hfinal : ((returned (Sample.firstJob.run Sample.cfg Sample.proc)).bind fun r =>
      (returned (Sample.secondJob.run Sample.cfg r.2.proc)).map fun r' =>
        ((returned (guardedRun Sample.secondJob r.2.proc)).isSome,
          (callsOf .tapLfun 0 r'.2.proc.hist).countP fun c => c.evt = .endT)) = some (true, 3) := by
    decide +kernel
  obtain ⟨⟨_, s⟩, hrun, hfinal⟩ := Option.bind_eq_some_iff.mp hfinal
  rw [returned_eq_some] at hrun
  obtain ⟨_, s', hrun', hfinal⟩ := ok_of_returned hfinal
  have hsession : Session Sample.cfg s.proc :=
    .run (.start rfl rfl rfl) ⟨fun _ => rfl, hcalls hfirst⟩ hrun
  have hnoXml : .xmlLfun ∉ (registered (Sample.secondJob.ctx Sample.cfg) Sample.secondJob.sr
      Sample.secondJob.args.printMode).map Log.lfun := by
    decide +kernel
  have hlogs := logs_own hsession (j := Sample.secondJob)
    ⟨fun hmem => absurd hmem hnoXml, hcalls (congrArg Prod.fst hfinal)⟩ 0
  rw [hrun'] at hlogs
  exact ⟨s, s', hrun, hrun', congrArg Prod.snd hfinal, hlogs.1⟩

/-- A run of two tests with a TAP log, from within a test. -/
def Sample.innerTap : NestedRun :=
  ⟨Sample.heap [⟨fun _ => [], [Sample.test [], Sample.test []], none⟩],
    { srunnerCreate with fstat := .nofork, tapFname := some (.lit "inner.tap") }, Sample.env,
    Sample.args⟩

/-- A second run with an XML log has the date of the first one.  A run with a TAP log
that has another one inside goes on with the numbers of that: its two tests are the
third and the fourth. -/
theorem logs_shared :
    (∃ s s', Sample.firstJob.run Sample.cfg Sample.proc = .ok () s ∧
      (Sample.job [Sample.test []] "1970-01-02 00:00:00" (some (.lit "2.xml")) none).run
        Sample.cfg s.proc = .ok () s' ∧
      ((callsOf .xmlLfun 0 s'.proc.hist).filter fun c => c.evt = .initlogSr).map
        (fun c => (c.clock.date, (c.xmlClock Sample.cfg).datetime)) =
          [(some (.lit "1970-01-01 00:00:00"), .lit "1970-01-01 00:00:00"),
            (some (.lit "1970-01-02 00:00:00"), .lit "1970-01-01 00:00:00")]) ∧
      ∃ s', (Sample.job [Sample.test [.call Sample.innerTap], Sample.test []] "1970-01-01 00:00:00"
          none (some (.lit "1.tap"))).run Sample.cfg Sample.proc = .ok () s' ∧
        s'.sr.resultlst.elems.length = 2 ∧
        ((callsOf .tapLfun 0 s'.proc.hist).filter fun c => c.evt = .endT ∨ c.evt = .endlogSr).map
          (fun c => (c.evt, c.numTestsRun)) = [(.endT, 3), (.endT, 4), (.endlogSr, 4)] := by
  have hxml : ((returned (Sample.firstJob.run Sample.cfg Sample.proc)).bind fun r =>
      (returned ((Sample.job [Sample.test []] "1970-01-02 00:00:00" (some (.lit "2.xml")) none).run
        Sample.cfg r.2.proc)).map fun r =>
          ((callsOf .xmlLfun 0 r.2.proc.hist).filter fun c => c.evt = .initlogSr).map
            fun c => (c.clock.date, (c.xmlClock Sample.cfg).datetime)) =
      some [(some (.lit "1970-01-01 00:00:00"), .lit "1970-01-01 00:00:00"),
        (some (.lit "1970-01-02 00:00:00"), .lit "1970-01-01 00:00:00")] := by
    decide +kernel
  have htap : (returned ((Sample.job [Sample.test [.call Sample.innerTap], Sample.test []]
      "1970-01-01 00:00:00" none (some (.lit "1.tap"))).run Sample.cfg Sample.proc)).map (fun r =>
        (r.2.sr.resultlst.elems.length,
          ((callsOf .tapLfun 0 r.2.proc.hist).filter fun c => c.evt = .endT ∨ c.evt = .endlogSr).map
            fun c => (c.evt, c.numTestsRun))) =
      some (2, [(.endT, 3), (.endT, 4), (.endlogSr, 4)]) := by
    decide +kernel
  refine ⟨?_, ?_⟩
  · obtain ⟨⟨_, s⟩, hrun, hfinal⟩ := Option.bind_eq_some_iff.mp hxml
    rw [returned_eq_some] at hrun
    obtain ⟨_, s', hrun', hdates⟩ := ok_of_returned hfinal
    exact ⟨s, s', hrun, hrun', hdates⟩
  · obtain ⟨_, s', hrun, hcounts⟩ := ok_of_returned htap
    exact ⟨s', hrun, congrArg Prod.fst hcounts, congrArg Prod.snd hcounts⟩

end LibCheck
