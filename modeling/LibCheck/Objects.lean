import LibCheck.CkList
import LibCheck.Punpack
import Mathlib.Logic.Function.Basic

/-!
# LibCheck.Objects

The objects of `check_impl.h` and the state of the process that runs them.

* **user code** — a test function or a fixture is a finite sequence of `Act`s:
  mark points, a failing assertion, an exit, a signal, or a call back into the
  library (`ν`).  What a function does may depend on the occasion of the call
  (`When`), so no two calls need to behave alike.
* **heap** — suites and test cases are identified by number; their lists are
  reached through `LRef`, the pointers `List *` of the source, so an object
  that occurs twice shares its lists and their cursors.
* **process** — the static variables of the library, among them the fork
  status, the jump buffer and the two message files, and the history of what
  was observed (`Obs`).

The state is generic in the implementation of lists (`Lists`) and in the
contents of a message file (`Wire`).  The code is the instance with
`check_list.c`'s lists and bytes; the instance with plain lists and whole
messages is the abstract machine it is compared with in `LibCheck.Lockstep`.
-/

namespace LibCheck

/-! ## small types -/

/-- `enum test_result`. -/
inductive TestResultType where
  /-- `CK_TEST_RESULT_INVALID` -/
  | invalid
  /-- `CK_PASS` -/
  | pass
  /-- `CK_FAILURE` -/
  | failure
  /-- `CK_ERROR` -/
  | error
deriving DecidableEq, Repr

/-- `enum print_output`, with the subunit mode compiled in. -/
inductive PrintOutput where
  | silent
  | minimal
  | normal
  | verbose
  | env
  | subunit
deriving DecidableEq, Repr

/-- `enum fork_status`. -/
inductive ForkStatus where
  /-- `CK_FORK_GETENV` -/
  | getenv
  /-- `CK_FORK` -/
  | fork
  /-- `CK_NOFORK` -/
  | nofork
deriving DecidableEq, Repr

/-- `struct TestResult`; a null pointer is `none`. -/
structure TestResult where
  rtype : TestResultType
  ctx : CkResultCtx
  file : Option CStr
  line : Int32
  iter : Int
  duration : Int32
  tcname : Option CStr
  tname : Option CStr
  msg : Option CStr
deriving DecidableEq, Repr

/-- `tr_create` and `tr_init`. -/
def trCreate : TestResult where
  ctx := .invalid
  line := -1
  rtype := .invalid
  msg := none
  file := none
  tcname := none
  tname := none
  duration := -1
  iter := 0

/-- `TestStats`. -/
structure TestStats where
  nChecked : Nat
  nFailed : Nat
  nErrors : Nat
deriving DecidableEq, Repr

/-- `struct timespec`. -/
structure Timespec where
  tvSec : Int
  tvNsec : Int
deriving DecidableEq, Repr

/-- `DIFF_IN_USEC`, before the conversion to the `int` it is passed as. -/
def diffInUsec (b e : Timespec) : Int :=
  (e.tvSec - b.tvSec) * 1000000 + e.tvNsec.tdiv 1000 - b.tvNsec.tdiv 1000

/-- What the system clock shows to `xml_lfun`: the local time as `strftime`
writes it, unless `localtime_r` fails, and the readings of `clock_gettime` for
the start and for the end of a run. -/
structure LogClock where
  date : Option CStr
  tsStart : Timespec
  tsEnd : Timespec
deriving DecidableEq, Repr

/-- `ts_start` and `t`, the static variables of `xml_lfun`. -/
structure XmlStatics where
  tsStart : Timespec
  t : CStr
deriving DecidableEq, Repr

/-! ## user code -/

/-- The occasion of a call of user code: which run of a test case the process
is in, and which test of it (`0` in the unchecked fixtures). -/
structure When where
  tcrun : Nat
  test : Nat
deriving DecidableEq, Repr

/-- `__FILE__` and `__LINE__` at a place of the user's code. -/
structure SrcLoc where
  file : CStr
  line : Int32
  line_nonneg : 0 ≤ line.toInt
deriving DecidableEq, Repr

/-- A signal number. -/
abbrev Signal := { n : Nat // 0 < n }

/-- One step of a user function; `ν` are its calls back into the library. -/
inductive Act (ν : Type) where
  /-- `mark_point()` -/
  | markPoint (loc : SrcLoc)
  /-- a failing assertion: its expression and its formatted message, if any -/
  | assertFailed (loc : SrcLoc) (expr : CStr) (msg : Option CStr)
  /-- `exit(status)` -/
  | exit (status : Int)
  /-- a signal that ends the process -/
  | raise (sig : Signal)
  /-- a call back into the library -/
  | call (c : ν)

/-- `SFun`, a fixture function: its address and its behaviour. -/
structure SFun (ν : Type) where
  addr : Nat
  acts : When → List (Act ν)

/-- `Fixture`. -/
structure Fixture (ν : Type) where
  ischecked : Bool
  sfun : SFun ν

/-- `TTest`: name, body and place of a test function. -/
structure TTest (ν : Type) where
  name : CStr
  fn : Int → When → List (Act ν)
  loc : SrcLoc

/-- `TF`, a registered test function. -/
structure TF (ν : Type) where
  ttest : TTest ν
  loopStart : Int
  loopEnd : Int
  signal : Int
  allowedExitValue : Int8

/-- The registration by `_tcase_add_test`: the allowed exit value is masked
with `WEXITSTATUS_MASK` and stored in a `signed char`. -/
def tcaseAddTest (ttest : TTest ν) (signal allowedExitValue start stop : Int) : TF ν where
  ttest := ttest
  loopStart := start
  loopEnd := stop
  signal := signal
  allowedExitValue := Int8.ofInt (allowedExitValue % 256)

/-! ## loggers -/

/-- The logger callbacks of `check_log.c`. -/
inductive LFun where
  | stdoutLfun
  | lfileLfun
  | xmlLfun
  | tapLfun
  | subunitLfun
deriving DecidableEq, Repr

/-- A file a logger writes to. -/
inductive OutFile where
  | stdout
  | named (fname : CStr)
deriving DecidableEq, Repr

/-- `Log`. -/
structure Log where
  lfile : OutFile
  lfun : LFun
  close : Bool
  mode : PrintOutput
deriving DecidableEq, Repr

/-! ## lists of the heap -/

abbrev SuiteId := Nat
abbrev TCaseId := Nat

/-- The four fixture lists of a test case. -/
inductive FixtureList where
  /-- unchecked setups -/
  | unchSflst
  /-- unchecked teardowns -/
  | unchTflst
  /-- checked setups -/
  | chSflst
  /-- checked teardowns -/
  | chTflst
deriving DecidableEq, Repr

/-- The two tag arguments of a run. -/
inductive TagArg where
  | includeTags
  | excludeTags
deriving DecidableEq, Repr

/-- The `List *` that a run walks: the suites and the loggers of the runner,
the test cases of a suite, the six lists of a test case, and the two tag lists
allocated by `srunner_iterate_suites`. -/
inductive LRef where
  | slst
  | tclst (s : SuiteId)
  | tflst (tc : TCaseId)
  | fixtures (fl : FixtureList) (tc : TCaseId)
  | tags (tc : TCaseId)
  | tagLst (a : TagArg)
  | loglst
deriving DecidableEq

/-- What a list holds. -/
@[reducible] def LRef.Elem (ν : Type) : LRef → Type
  | .slst => SuiteId
  | .tclst _ => TCaseId
  | .tflst _ => TF ν
  | .fixtures _ _ => Fixture ν
  | .tags _ | .tagLst _ => CStr
  | .loglst => Log

/-- How a process ends, or why the model of it cannot go on. -/
inductive Stop where
  /-- `exit` or `_exit`, with the status the parent sees -/
  | exited (code : UInt8)
  /-- killed by a signal -/
  | signaled (sig : Signal)
  /-- undefined behaviour: a null pointer, a jump into a dead frame -/
  | undefined
  /-- a loop ran past its budget -/
  | diverged
  /-- no behaviour of the code: a condition on what user code calls broke the run off -/
  | brokenOff
deriving DecidableEq, Repr

/-- The process itself has stopped. -/
def Stop.Real : Stop → Prop
  | .exited _ => True
  | .signaled _ => True
  | .undefined => True
  | .diverged => False
  | .brokenOff => False

theorem Stop.Real.ne_diverged {e : Stop} (h : e.Real) : e ≠ .diverged := by
  rintro rfl
  exact h

/-- An implementation of lists with traversal in place: `forEach` walks the
list at a place of the state and stops when the body returns `some`. -/
class Lists (L : Type → Type) where
  empty {α : Type} : L α
  addEnd {α : Type} : L α → α → L α
  elems {α : Type} : L α → List α
  forEach {σ α β : Type} : (σ → L α) → (L α → σ → σ) → Nat →
    (α → EStateM Stop σ (Option β)) → EStateM Stop σ (Option β)

/-- A list built by appending. -/
def Lists.ofElems {L : Type → Type} [Lists L] (xs : List α) : L α :=
  xs.foldl Lists.addEnd Lists.empty

/-- The lists of `check_list.c`. -/
instance : Lists CkList where
  empty := CkList.create
  addEnd := CkList.addEnd
  elems := CkList.elems
  forEach get set slack body := (CkList.cursor get set).forEach slack .diverged .undefined body

/-- Plain sequences. -/
instance : Lists List where
  empty := []
  addEnd l v := l ++ [v]
  elems l := l
  forEach get _ _ body := fun s => (get s).findSomeM? body s

/-! ## events -/

/-- `enum cl_event`. -/
inductive ClEvent where
  | initlogSr
  | endlogSr
  | startSr
  | startS
  | endSr
  | endS
  | startT
  | endT
deriving DecidableEq, Repr

/-- The `obj` argument of a log event. -/
inductive LogObj where
  | null
  | suite (s : SuiteId) (name : CStr)
  | testName (buffer : CStr)
  | result (tr : TestResult)
deriving DecidableEq, Repr

/-- One call of a logger callback: its arguments, what it can see of the
runner and of the clock, and the values it leaves in `num_tests_run`, the static
counter of `tap_lfun`, and in the static variables of `xml_lfun`. -/
structure LogCall where
  log : Log
  evt : ClEvent
  obj : LogObj
  stats : TestStats
  results : List TestResult
  numTestsRun : Nat
  clock : LogClock
  xmlStatics : XmlStatics
deriving DecidableEq, Repr

/-- What `_ck_assert_failed` is called with. -/
structure Assertion where
  loc : SrcLoc
  expr : CStr
  msg : Option CStr
deriving DecidableEq, Repr

/-- What is observed of a process.  The history is not part of the program's
state; no function reads it.  Its length stands for the moment at which a
callback looks at the clock. -/
inductive Obs where
  /-- a logger callback was called -/
  | log (c : LogCall)
  /-- `srunner_run_tcase` was called -/
  | tcase (tc : TCaseId)
  /-- an iteration of a test function begins -/
  | iter (tc : TCaseId) (tname : CStr) (i : Int)
  /-- a fixture function was called -/
  | fixture (fl : FixtureList) (addr : Nat)
  /-- a test function was called -/
  | body (tname : CStr) (i : Int)
  /-- `_ck_assert_failed` has sent the place and the message of a failing assertion -/
  | assertFailed (a : Assertion)
deriving DecidableEq, Repr

/-- The observation is about user code. -/
def Obs.isUser : Obs → Bool
  | .fixture _ _ | .body _ _ | .assertFailed _ => true
  | _ => false

/-- The observation is the call of a test case. -/
def Obs.isTcase : Obs → Bool
  | .tcase _ => true
  | _ => false

/-! ## the process -/

/-- `struct sigaction`: the handler installed by `srunner_run_tagged`, or one
of the program's own. -/
inductive SigAction where
  | sigHandler
  | user (n : Nat)
deriving DecidableEq, Repr

/-- The dispositions of the three signals a run takes over. -/
structure SigActions where
  sigalrm : SigAction
  sigint : SigAction
  sigterm : SigAction
deriving DecidableEq, Repr

/-- An open message file.  `id` tells files apart that were opened one after
the other. -/
structure Pipe (β : Type) where
  id : Nat
  content : List β
deriving DecidableEq

/-- The static variables of the library and what the process shares with its
surroundings. -/
structure Proc (β : Type) where
  /-- `_fstat`, the current fork status -/
  fstat : ForkStatus
  /-- `error_jmp_buffer`: the run (by its nesting level) whose `setjmp` was
  the last one -/
  errorJmpBuffer : Option Nat
  sendFile1 : Option (Pipe β)
  sendFile2 : Option (Pipe β)
  /-- the next file to be opened -/
  nextFile : Nat
  /-- `alarm_received` -/
  alarmReceived : Bool
  /-- `num_tests_run`, the static variable of `tap_lfun` -/
  numTestsRun : Nat
  /-- the static variables of `xml_lfun` -/
  xmlStatics : XmlStatics
  /-- the process is going to be killed: after so many more messages, by this
  signal -/
  killIn : Option (Nat × Signal)
  /-- the signal dispositions in force -/
  sigs : SigActions
  /-- `sigalarm_old_action`, `sigint_old_action`, `sigterm_old_action` -/
  oldSigs : SigActions
  /-- what was observed so far, each entry with the nesting level of its run -/
  hist : List (Nat × Obs)

/-- The suites, test cases and lists of a runner. -/
structure Heap (L : Type → Type) (ν : Type) where
  lists : (r : LRef) → L (r.Elem ν)
  suiteName : SuiteId → CStr
  tcName : TCaseId → CStr

/-- `struct SRunner`; its suites are `LRef.slst`, its loggers, if the pointer is
not null, `LRef.loglst`. -/
structure SRunner (L : Type → Type) where
  stats : TestStats
  resultlst : L TestResult
  logFname : Option CStr
  xmlFname : Option CStr
  tapFname : Option CStr
  /-- `sr->loglst` is not null -/
  loglst : Bool
  fstat : ForkStatus

/-- The state of a run. -/
structure St (L : Type → Type) (β ν : Type) where
  proc : Proc β
  heap : Heap L ν
  sr : SRunner L
  /-- the occasion for the next call of user code -/
  now : When

/-- Programs of a run. -/
abbrev RunM (L : Type → Type) (β ν : Type) := EStateM Stop (St L β ν)

/-! ## surroundings -/

/-- The build: the platform, the message limit, `BUFSIZ`, and the library
functions whose text is not fixed by the sources.  The limit is one for which
the receiver's buffer can be an object: twice its value is at most
`SSIZE_MAX`. -/
structure Config where
  sz : SizeT
  /-- `get_max_msg_size()` -/
  maxMsg : Nat
  window_le : maxMsg * 2 ≤ sz.ssizeMax
  /-- `BUFSIZ` -/
  bufsiz : Nat
  /-- the signedness of `char` -/
  charSigned : Bool
  /-- what `malloc` leaves in a block -/
  mallocd : Nat → UInt8
  /-- `strsignal` -/
  strsignal : Int → CStr
  /-- the quotient of `percent_passed`, computed in single precision -/
  floatPercent : (passed checked : Int) → Int
  floatPercent_mem : ∀ passed checked, 0 ≤ passed → passed ≤ checked → 0 < checked →
    0 ≤ floatPercent passed checked ∧ floatPercent passed checked ≤ 100

/-- The environment variables a run reads. -/
inductive EnvVar where
  | ckFork
  | ckRunCase
  | ckRunSuite
  | ckIncludeTags
  | ckExcludeTags
  | ckLogFileName
  | ckXmlLogFileName
  | ckTapLogFileName
  | ckVerbosity
deriving DecidableEq, Repr

/-- What a run takes from its surroundings: the environment, the clock around
each test and at each call of a logger, and for each forked test whether (after how many messages,
by
which signal) it is killed from outside and whether the alarm went off. -/
structure Env where
  getenv : EnvVar → Option CStr
  clock : When → Timespec × Timespec
  logClock : Nat → LogClock
  kill : When → Option (Nat × Signal)
  alarm : When → Bool
  /-- iterations a list loop may make beyond the length of its list -/
  slack : Nat

/-- The fixed parameters of a run. -/
structure Ctx where
  cfg : Config
  env : Env
  /-- nesting level: `0` for a run that is not inside another one -/
  lvl : Nat

/-- A representation of the contents of a message file: what `ppack` appends
for a message, and what `punpack` makes of the whole file. -/
class Wire (β : Type) where
  ppack : Config → SendMsg → Except EPrintf (List β)
  punpack : Config → List β → Option (Except Fault (Option RcvMsg))

/-- Bytes, as in the sources. -/
instance : Wire UInt8 where
  ppack cfg m := LibCheck.ppack cfg.sz cfg.maxMsg m
  punpack cfg file := LibCheck.punpack cfg.sz cfg.maxMsg cfg.mallocd file

/-- Whole messages: what is accepted is kept, and received one by one; a
negative `int` field stops the receiver. -/
instance : Wire SendMsg where
  ppack cfg m := (LibCheck.ppack cfg.sz cfg.maxMsg m).map fun _ => [m]
  punpack _ ms :=
    if ∀ m ∈ ms, m.NonNeg then some (.ok (rcvmsgOrNull (received rcvmsgCreate ms)))
    else some (.error (.eprintf .punpackError))

/-! ## access to the state -/

namespace St

variable {L : Type → Type} {β ν : Type}

/-- Change the process. -/
def onProc (f : Proc β → Proc β) (s : St L β ν) : St L β ν := { s with proc := f s.proc }

/-- Store a list in the heap. -/
def setList (r : LRef) (l : L (r.Elem ν)) (s : St L β ν) : St L β ν :=
  { s with heap := { s.heap with lists := Function.update s.heap.lists r l } }

theorem lists_setList_self (r : LRef) (l : L (r.Elem ν)) (s : St L β ν) :
    (s.setList r l).heap.lists r = l := Function.update_self ..

theorem lists_setList_of_ne {q r : LRef} (h : q ≠ r) (l : L (r.Elem ν)) (s : St L β ν) :
    (s.setList r l).heap.lists q = s.heap.lists q := Function.update_of_ne h ..

end St

/-- Record an observation of the run at nesting level `lvl`. -/
def Proc.observe (lvl : Nat) (o : Obs) (p : Proc β) : Proc β :=
  { p with hist := p.hist ++ [(lvl, o)] }

end LibCheck
