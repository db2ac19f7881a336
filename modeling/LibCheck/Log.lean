import LibCheck.Fun
import LibCheck.Print

/-!
# LibCheck.Log

The loggers (`check_log.c`): which ones a run registers, the events it sends
them, and what each of them writes.

An event is sent by walking `sr->loglst`; every call of a callback is recorded
in the history with what the callback can see (`LogCall`), and the text it
writes is a function of that record (`LogCall.text`).
-/

namespace LibCheck

open Prog

/-! ## callbacks -/

/-- What an XML log takes from the clock: the start of the run as `datetime`,
and the microseconds since then. -/
structure XmlClock where
  datetime : CStr
  elapsed : Nat

/-- `stdout_lfun`. -/
def stdoutLfun (x : Ctx) (c : LogCall) : List (List UInt8) :=
  let loud := PrintOutput.silent.rank < c.log.mode.rank
  match c.evt, c.obj with
  | .startSr, _ => if loud then [text "Running suite(s):"] else []
  | .startS, .suite _ name => if loud then [text " " ++ name.bytes ++ text "\n"] else []
  | .endSr, _ => if loud then srunnerText x c.stats c.results c.log.mode else []
  | _, _ => []

/-- `lfile_lfun`. -/
def lfileLfun (x : Ctx) (c : LogCall) : List (List UInt8) :=
  match c.evt, c.obj with
  | .startS, .suite _ name => [text "Running suite " ++ name.bytes ++ text "\n"]
  | .endSr, _ => text "Results for all suites run:\n" :: srunnerText x c.stats c.results .minimal
  | .endT, .result tr => (trFprint x.env tr .verbose).toList
  | _, _ => []

/-- `xml_lfun`. -/
def xmlLfun (x : Ctx) (clock : XmlClock) (c : LogCall) : List (List UInt8) :=
  match c.evt, c.obj with
  | .initlogSr, _ =>
      [text ("<?xml version=\"1.0\"?>\n<?xml-stylesheet type=\"text/xsl\" " ++
          "href=\"http://check.sourceforge.net/xml/check_unittest.xslt\"?>\n" ++
          "<testsuites xmlns=\"http://check.sourceforge.net/ns\">\n  <datetime>") ++
        clock.datetime.bytes ++ text "</datetime>\n"]
  | .endlogSr, _ =>
      [text "  <duration>" ++ fmtInt (clock.elapsed / 1000000) ++ text "." ++
        fmtMicros (clock.elapsed % 1000000) ++ text "</duration>\n</testsuites>\n"]
  | .startS, .suite _ name =>
      [text "  <suite>\n    <title>", fprintXmlEsc x.cfg name, text "</title>\n"]
  | .endS, _ => [text "  </suite>\n"]
  | .endT, .result tr => (trXmlprint x.cfg tr).toList
  | _, _ => []

/-- The static counter of `tap_lfun` after an event. -/
def tapCount (evt : ClEvent) (numTestsRun : Nat) : Nat :=
  match evt with
  | .initlogSr => 0
  | .endT => numTestsRun + 1
  | _ => numTestsRun

/-- The static variables of `xml_lfun` after an event: they are set as long as
there is no date. -/
def xmlStart (clock : LogClock) (v : XmlStatics) : XmlStatics :=
  if v.t = .empty then ⟨clock.tsStart, clock.date.getD v.t⟩ else v

/-- `tap_lfun`. -/
def tapLfun (c : LogCall) : List (List UInt8) :=
  match c.evt, c.obj with
  | .endlogSr, _ => [text "1.." ++ fmtInt c.numTestsRun ++ text "\n"]
  | .endT, .result tr =>
      [text (if tr.rtype = .pass then "ok" else "not ok") ++ text " " ++ fmtInt c.numTestsRun ++
        text " - " ++ fmtStr tr.file ++ text ":" ++ fmtStr tr.tcname ++ text ":" ++
        fmtStr tr.tname ++ text ": " ++ fmtStr tr.msg ++ text "\n"]
  | _, _ => []

/-- `subunit_lfun`, without the packets of the subunit library. -/
def subunitLfun (x : Ctx) (c : LogCall) : List (List UInt8) :=
  match c.evt with
  | .endSr =>
      if PrintOutput.silent.rank < c.log.mode.rank then
        text "\n" :: srunnerText x c.stats c.results c.log.mode
      else []
  | _ => []

/-- What a call of a callback writes to its file. -/
def LogCall.text (x : Ctx) (clock : XmlClock) (c : LogCall) : List (List UInt8) :=
  match c.log.lfun with
  | .stdoutLfun => stdoutLfun x c
  | .lfileLfun => lfileLfun x c
  | .xmlLfun => xmlLfun x clock c
  | .tapLfun => tapLfun c
  | .subunitLfun => subunitLfun x c

/-- How a callback ends the process: the XML logger by `abort` on an
unclassified result and by reading a null string, the subunit logger by
`eprintf`. -/
def lfunStop (lfun : LFun) (obj : LogObj) : Option Stop :=
  match lfun, obj with
  | .xmlLfun, .result tr =>
      if tr.rtype = .invalid then some (.signaled ⟨6, by decide⟩)
      else if tr.tcname = none ∨ tr.msg = none then some .undefined
      else none
  | .subunitLfun, .result tr => if tr.rtype = .invalid then some (.exited 2) else none
  | _, _ => none

/-- No callback runs out of a budget. -/
theorem real_of_lfunStop {lfun : LFun} {obj : LogObj} {e : Stop} (h : lfunStop lfun obj = some e) :
    e.Real := by
  unfold lfunStop at h
  split at h
  · split at h
    · cases h
      trivial
    · split at h <;> cases h
      trivial
  · split at h <;> cases h
    trivial
  · cases h

/-! ## events -/

section

variable {L : Type → Type} {β ν : Type} [Lists L]

/-- The call of one callback. -/
def callLfun (x : Ctx) (lg : Log) (evt : ClEvent) (obj : LogObj) : RunM L β ν Unit := do
  update (St.onProc fun p =>
    if lg.lfun = .tapLfun then { p with numTestsRun := tapCount evt p.numTestsRun } else p)
  let clock ← read fun s => x.env.logClock s.proc.hist.length
  update (St.onProc fun p =>
    if lg.lfun = .xmlLfun then { p with xmlStatics := xmlStart clock p.xmlStatics } else p)
  let stats ← read fun s => s.sr.stats
  let results ← read fun s => Lists.elems s.sr.resultlst
  let numTestsRun ← read fun s => s.proc.numTestsRun
  let xmlStatics ← read fun s => s.proc.xmlStatics
  update (St.onProc (Proc.observe x.lvl
    (.log ⟨lg, evt, obj, stats, results, numTestsRun, clock, xmlStatics⟩)))
  match lfunStop lg.lfun obj with
  | some e => throw e
  | none => pure ()

/-- A loop over `sr->loglst`. -/
def forLogs (x : Ctx) (body : Log → RunM L β ν (Option Unit)) : RunM L β ν (Option Unit) := do
  if ← read fun s => s.sr.loglst then forList x .loglst body
  else throw .undefined

/-- `srunner_send_evt`. -/
def srunnerSendEvt (x : Ctx) (obj : LogObj) (evt : ClEvent) : RunM L β ν Unit := do
  let _ ← forLogs x fun lg => do
    callLfun x lg evt obj
    pure none

/-- `log_srunner_start`. -/
def logSrunnerStart (x : Ctx) : RunM L β ν Unit := srunnerSendEvt x .null .startSr

/-- `log_srunner_end`. -/
def logSrunnerEnd (x : Ctx) : RunM L β ν Unit := srunnerSendEvt x .null .endSr

/-- `log_suite_start`. -/
def logSuiteStart (x : Ctx) (s : SuiteId) : RunM L β ν Unit := do
  let name ← read fun st => st.heap.suiteName s
  srunnerSendEvt x (.suite s name) .startS

/-- `log_suite_end`. -/
def logSuiteEnd (x : Ctx) (s : SuiteId) : RunM L β ν Unit := do
  let name ← read fun st => st.heap.suiteName s
  srunnerSendEvt x (.suite s name) .endS

/-- The buffer of `log_test_start`, cut off at 98 bytes. -/
def testStartName (tcname tname : CStr) : CStr :=
  .truncate 99 (tcname.bytes ++ text ":" ++ tname.bytes)

/-- `log_test_start`. -/
def logTestStart (x : Ctx) (tc : TCaseId) (tfun : TF ν) : RunM L β ν Unit := do
  let tcname ← read fun s => s.heap.tcName tc
  srunnerSendEvt x (.testName (testStartName tcname tfun.ttest.name)) .startT

/-- `log_test_end`. -/
def logTestEnd (x : Ctx) (tr : TestResult) : RunM L β ν Unit :=
  srunnerSendEvt x (.result tr) .endT

/-! ## registration -/

/-- `srunner_register_lfun`. -/
def srunnerRegisterLfun (x : Ctx) (lfile : OutFile) (close : Bool) (lfun : LFun)
    (printmode : PrintOutput) : RunM L β ν Unit :=
  update fun s => s.setList .loglst
    (Lists.addEnd (s.heap.lists .loglst) ⟨lfile, lfun, close, resolvePrintmode x.env printmode⟩)

/-- `srunner_log_fname`, `srunner_xml_fname` and `srunner_tap_fname`. -/
def logFileName (env : Env) (fname : Option CStr) (var : EnvVar) : Option CStr :=
  match fname with
  | some f => some f
  | none => env.getenv var

/-- `srunner_open_file`; every file can be opened. -/
def srunnerOpenFile (filename : CStr) : OutFile :=
  if filename = .lit "-" then .stdout else .named filename

/-- Open a log file, if there is one, and register its logger. -/
def registerFile (x : Ctx) (fname : Option CStr) (var : EnvVar) (lfun : LFun)
    (printmode : PrintOutput) : RunM L β ν Unit :=
  match (logFileName x.env fname var).map srunnerOpenFile with
  | none => pure ()
  | some f => srunnerRegisterLfun x f (f ≠ .stdout) lfun printmode

/-- `srunner_init_logging`. -/
def srunnerInitLogging (x : Ctx) (printMode : PrintOutput) : RunM L β ν Unit := do
  update (St.setList .loglst Lists.empty)
  update fun s => { s with sr := { s.sr with loglst := true } }
  srunnerRegisterLfun x .stdout false
    (if printMode ≠ .subunit then .stdoutLfun else .subunitLfun) printMode
  let logFname ← read fun s => s.sr.logFname
  registerFile x logFname .ckLogFileName .lfileLfun printMode
  let xmlFname ← read fun s => s.sr.xmlFname
  registerFile x xmlFname .ckXmlLogFileName .xmlLfun printMode
  let tapFname ← read fun s => s.sr.tapFname
  registerFile x tapFname .ckTapLogFileName .tapLfun printMode
  srunnerSendEvt x .null .initlogSr

/-- `srunner_end_logging`.  Closing a file succeeds. -/
def srunnerEndLogging (x : Ctx) : RunM L β ν Unit := do
  srunnerSendEvt x .null .endlogSr
  let _ ← forLogs x fun _ => pure (none : Option Unit)
  update fun s => { s with sr := { s.sr with loglst := false } }

end

end LibCheck
