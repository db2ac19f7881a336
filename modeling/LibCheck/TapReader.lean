import LibCheck.Log

/-!
# LibCheck.TapReader

What a reader of TAP finds in the log that `tap_lfun` writes.

The reader takes the log line by line: a line is a test line, a plan line, or
none of these and skipped.  The logger prints one line for each result, but the
names and the message of the result as they are; a newline in them begins a
line of its own.

* `tapLine?`, `readTap` — the reader.
* `TapCalls` — the calls of the logger from the begin of a log to its end.
* `tap_read_back_iff` — the reader finds the results, their numbers and the
  plan if and only if no line that a result begins in the middle looks like a
  test line or a plan line.
-/

namespace LibCheck

/-! ## decimal numbers -/

/-- The byte is a decimal digit. -/
def isDigit (b : UInt8) : Bool := 48 ≤ b && b ≤ 57

/-- The number with the given decimal digits. -/
def decimalValue (ds : List UInt8) : Nat := ds.foldl (fun n d => 10 * n + (d.toNat - 48)) 0

/-- The digits of a natural number. -/
def decimalDigits (n : Nat) : List UInt8 := (Nat.toDigits 10 n).map fun c => UInt8.ofNat c.toNat

theorem digit_of_mem_toDigits {c : Char} {n : Nat} (h : c ∈ Nat.toDigits 10 n) :
    48 ≤ c.toNat ∧ c.toNat ≤ 57 := by
  have hd : c.isDigit := Nat.isDigit_of_mem_toDigits (by omega) (by omega) h
  simp only [Char.isDigit, Bool.and_eq_true, decide_eq_true_eq, UInt32.le_iff_toNat_le] at hd
  exact hd

theorem isDigit_of_mem_decimalDigits {b : UInt8} {n : Nat} (h : b ∈ decimalDigits n) :
    isDigit b = true := by
  obtain ⟨c, hc, rfl⟩ := List.mem_map.mp h
  have hrange := digit_of_mem_toDigits hc
  have hnat : (UInt8.ofNat c.toNat).toNat = c.toNat := by
    rw [UInt8.toNat_ofNat']
    omega
  simp only [isDigit, Bool.and_eq_true, decide_eq_true_eq, UInt8.le_iff_toNat_le, hnat]
  exact hrange

theorem decimalDigits_ne_nil (n : Nat) : decimalDigits n ≠ [] := by
  rw [decimalDigits, ne_eq, List.map_eq_nil_iff]
  exact Nat.toDigits_ne_nil

theorem decimalValue_decimalDigits (n : Nat) : decimalValue (decimalDigits n) = n := by
  have hfold : ∀ (cs : List Char) (k : Nat), (∀ c ∈ cs, 48 ≤ c.toNat ∧ c.toNat ≤ 57) →
      (cs.map fun c => UInt8.ofNat c.toNat).foldl (fun n d => 10 * n + (d.toNat - 48)) k =
        Nat.ofDigitChars 10 cs k := by
    intro cs
    induction cs with
    | nil =>
        intro k _
        rfl
    | cons c cs ih =>
        intro k h
        obtain ⟨hc, hcs⟩ := List.forall_mem_cons.mp h
        have hnat : (UInt8.ofNat c.toNat).toNat = c.toNat := by
          rw [UInt8.toNat_ofNat']
          omega
        rw [List.map_cons, List.foldl_cons, ih _ hcs, hnat, Nat.ofDigitChars_cons]
        rfl
  rw [decimalValue, decimalDigits, hfold _ 0 fun c hc => digit_of_mem_toDigits hc]
  exact Nat.ofDigitChars_ten_toDigits

/-- `%d` of a number that is not negative. -/
theorem fmtInt_natCast (n : Nat) : fmtInt (n : Int) = decimalDigits n := by
  have hrepr : (toString (n : Int)).toList = Nat.toDigits 10 n := by
    show (Int.repr (n : Int)).toList = _
    simp [Int.repr, Nat.repr]
  have hzero : ∀ b ∈ decimalDigits n, b ≠ 0 := by
    rintro b hb rfl
    have hd := isDigit_of_mem_decimalDigits hb
    simp [isDigit] at hd
  show ((((toString (n : Int)).toList.map fun c => UInt8.ofNat c.toNat)).takeWhile (· ≠ 0)) = _
  rw [hrepr]
  refine List.takeWhile_eq_self_iff.mpr fun b hb => ?_
  simpa using hzero b hb

/-! ## the reader -/

/-- What a line says. -/
inductive TapLine where
  /-- `ok` or `not ok`, and the number of the test, if there is one -/
  | test (ok : Bool) (num : Option Nat)
  /-- `1..n` -/
  | plan (n : Nat)
deriving DecidableEq, Repr

/-- A word ends at the end of the line or at a blank. -/
def wordEnds : List UInt8 → Bool
  | [] => true
  | b :: _ => b = 32

/-- The number that the rest of a line begins with. -/
def leadingNumber (l : List UInt8) : Option Nat :=
  if l.takeWhile isDigit ≠ [] ∧ wordEnds (l.dropWhile isDigit) then
    some (decimalValue (l.takeWhile isDigit))
  else none

/-- What follows `ok` or `not ok`. -/
def testLine? (ok : Bool) (l : List UInt8) : Option TapLine :=
  if wordEnds l then some (.test ok (leadingNumber (l.dropWhile (· = 32)))) else none

/-- A line of TAP. -/
def tapLine? (l : List UInt8) : Option TapLine :=
  if text "1.." <+: l then (leadingNumber (l.drop 3)).map .plan
  else if text "not ok" <+: l then testLine? false (l.drop 6)
  else if text "ok" <+: l then testLine? true (l.drop 2)
  else none

/-- The test lines and plan lines of a log. -/
def readTap (log : List UInt8) : List TapLine := (log.splitOn 10).filterMap tapLine?

theorem readTap_append (xs ys : List UInt8) : readTap (xs ++ 10 :: ys) = readTap xs ++
    readTap ys := by
  rw [readTap, List.splitOn_append_cons_self, List.filterMap_append]
  rfl

theorem leadingNumber_decimalDigits (n : Nat) {rest : List UInt8} (h : wordEnds rest = true) :
    leadingNumber (decimalDigits n ++ rest) = some n := by
  have hall : ∀ b ∈ decimalDigits n, isDigit b = true := fun _ => isDigit_of_mem_decimalDigits
  have hrest : rest.takeWhile isDigit = [] ∧ rest.dropWhile isDigit = rest := by
    cases rest with
    | nil => exact ⟨rfl, rfl⟩
    | cons b rest =>
        obtain rfl : b = 32 := by simpa [wordEnds] using h
        exact ⟨rfl, rfl⟩
  rw [leadingNumber, List.takeWhile_append_of_pos hall, List.dropWhile_append_of_pos hall, hrest.1,
    hrest.2, List.append_nil, if_pos ⟨decimalDigits_ne_nil n, h⟩, decimalValue_decimalDigits]

/-! ## the log -/

/-- What is printed of a result after its number. -/
def tapDescription (tr : TestResult) : List UInt8 :=
  fmtStr tr.file ++ text ":" ++ fmtStr tr.tcname ++ text ":" ++ fmtStr tr.tname ++ text ": " ++
    fmtStr tr.msg

/-- No line of the description after the first one looks like a test line or a plan
line. -/
def OneTapLine (tr : TestResult) : Prop :=
  ∀ l ∈ ((tapDescription tr).splitOn 10).tail, tapLine? l = none

instance (tr : TestResult) : Decidable (OneTapLine tr) :=
  inferInstanceAs (Decidable (∀ l ∈ ((tapDescription tr).splitOn 10).tail, tapLine? l = none))

/-- Calls of `tap_lfun` within a log, made one after the other: the value of its counter
before them, the results that they are given, and the value after them. -/
inductive TapEvents : Nat → List LogCall → List TestResult → Nat → Prop where
  | nil (n : Nat) : TapEvents n [] [] n
  | result {n m : Nat} {calls : List LogCall} {results : List TestResult} (c : LogCall)
      (tr : TestResult) (hevt : c.evt = .endT) (hobj : c.obj = .result tr)
      (hnum : c.numTestsRun = tapCount c.evt n) (h : TapEvents c.numTestsRun calls results m) :
      TapEvents n (c :: calls) (tr :: results) m
  | other {n m : Nat} {calls : List LogCall} {results : List TestResult} (c : LogCall)
      (hevt : c.evt ∉ [ClEvent.initlogSr, .endT, .endlogSr])
      (hnum : c.numTestsRun = tapCount c.evt n) (h : TapEvents c.numTestsRun calls results m) :
      TapEvents n (c :: calls) results m

/-- The calls of `tap_lfun` for one log, from `CLINITLOG_SR`, at which its counter may
have any value, to `CLENDLOG_SR`. -/
inductive TapCalls : List LogCall → List TestResult → Prop where
  | mk {n m : Nat} {calls : List LogCall} {results : List TestResult} (first last : LogCall)
      (hfirst : first.evt = .initlogSr) (hnum : first.numTestsRun = tapCount first.evt n)
      (h : TapEvents first.numTestsRun calls results m) (hlast : last.evt = .endlogSr)
      (hplan : last.numTestsRun = tapCount last.evt m) : TapCalls (first :: calls ++ [last]) results

/-- What the calls write. -/
def tapText (calls : List LogCall) : List UInt8 := calls.flatMap fun c => (tapLfun c).flatten

/-- What the reader should find: a test line for each result, numbered from `1` on, and
the plan. -/
def tapReport (results : List TestResult) : List TapLine :=
  (results.zipIdx 1).map (fun p => .test (p.1.rtype = .pass) (some p.2)) ++ [.plan results.length]

/-- What the reader finds in the lines of a description after the first one. -/
def strayLines (tr : TestResult) : List TapLine :=
  ((tapDescription tr).splitOn 10).tail.filterMap tapLine?

theorem strayLines_eq_nil_iff {tr : TestResult} : strayLines tr = [] ↔ OneTapLine tr :=
  List.filterMap_eq_nil_iff

/-- A text without a newline before another one lengthens its first line. -/
theorem splitOn_append_left {xs : List UInt8} (h : 10 ∉ xs) (ys : List UInt8) :
    ∃ l, (xs ++ ys).splitOn 10 = (xs ++ l) :: (ys.splitOn 10).tail := by
  by_cases hy : 10 ∈ ys
  · obtain ⟨l, r, rfl, hl⟩ := List.eq_append_cons_of_mem hy
    refine ⟨l, ?_⟩
    rw [← List.append_assoc, List.splitOn_append_cons_self_of_not_mem (by simp [h, hl]),
      List.splitOn_append_cons_self_of_not_mem hl]
    rfl
  · refine ⟨ys, ?_⟩
    rw [List.splitOn_eq_singleton (by simp [h, hy]), List.splitOn_eq_singleton hy]
    rfl

/-- The head of the line of a result. -/
def tapHead (tr : TestResult) (n : Nat) : List UInt8 :=
  text (if tr.rtype = .pass then "ok" else "not ok") ++ text " " ++ fmtInt n ++ text " - "

theorem newline_notMem_tapHead (tr : TestResult) (n : Nat) : 10 ∉ tapHead tr n := by
  have hdigits : 10 ∉ decimalDigits n := fun hm => by
    have hd := isDigit_of_mem_decimalDigits hm
    simp [isDigit] at hd
  have htext : 10 ∉ text (if tr.rtype = .pass then "ok" else "not ok") := by
    split <;> decide
  have hblank : 10 ∉ text " " ∧ 10 ∉ text " - " := by decide
  rw [tapHead, fmtInt_natCast]
  simp only [List.mem_append, not_or]
  exact ⟨⟨⟨htext, hblank.1⟩, hdigits⟩, hblank.2⟩

/-- What follows `ok` or `not ok` in the line of a result. -/
theorem testLine?_number (ok : Bool) (n : Nat) (l : List UInt8) :
    testLine? ok (32 :: (decimalDigits n ++ (text " - " ++ l))) = some (.test ok (some n)) := by
  have hnum : leadingNumber (decimalDigits n ++ (text " - " ++ l)) = some n :=
    leadingNumber_decimalDigits n rfl
  have hdrop : (32 :: (decimalDigits n ++ (text " - " ++ l))).dropWhile (· = 32) =
      decimalDigits n ++ (text " - " ++ l) := by
    cases hd : decimalDigits n with
    | nil => exact absurd hd (decimalDigits_ne_nil n)
    | cons d ds =>
        have hdigit : isDigit d = true :=
          isDigit_of_mem_decimalDigits (hd ▸ List.mem_cons_self)
        have hne : d ≠ 32 := by
          rintro rfl
          cases hdigit
        rw [List.cons_append, List.dropWhile_cons_of_pos (by decide),
          List.dropWhile_cons_of_neg (by simpa using hne)]
  have hend : wordEnds (32 :: (decimalDigits n ++ (text " - " ++ l))) = true := rfl
  rw [testLine?, if_pos hend, hdrop, hnum]

/-- The line of a result is a test line with its number. -/
theorem tapLine?_tapHead (tr : TestResult) (n : Nat) (l : List UInt8) :
    tapLine? (tapHead tr n ++ l) = some (.test (tr.rtype = .pass) (some n)) := by
  have hok : text "ok" = [111, 107] ∧ text "not ok" = [110, 111, 116, 32, 111, 107] ∧
      text "1.." = [49, 46, 46] ∧ text " " = [32] := by decide
  by_cases hp : tr.rtype = .pass
  · have hline : tapHead tr n ++ l = 111 :: 107 :: 32 ::
      (decimalDigits n ++ (text " - " ++ l)) := by
      simp [tapHead, hp, hok, fmtInt_natCast]
    rw [hline, tapLine?, hok.1, hok.2.1, hok.2.2.1, if_neg (by simp), if_neg (by simp),
      if_pos (by simp), decide_eq_true hp]
    exact testLine?_number true n l
  · have hline : tapHead tr n ++ l =
        110 :: 111 :: 116 :: 32 :: 111 :: 107 :: 32 :: (decimalDigits n ++ (text " - " ++ l)) := by
      simp [tapHead, hp, hok, fmtInt_natCast]
    rw [hline, tapLine?, hok.1, hok.2.1, hok.2.2.1, if_neg (by simp), if_pos (by simp),
      decide_eq_false hp]
    exact testLine?_number false n l

/-- What the reader finds in what is printed of a result. -/
theorem readTap_result (tr : TestResult) (n : Nat) :
    readTap (tapHead tr n ++ tapDescription tr) =
      .test (tr.rtype = .pass) (some n) :: strayLines tr := by
  obtain ⟨l, hl⟩ := splitOn_append_left (newline_notMem_tapHead tr n) (tapDescription tr)
  rw [readTap, hl, List.filterMap_cons, tapLine?_tapHead]
  rfl

/-- The plan line. -/
theorem readTap_plan (n : Nat) : readTap (text "1.." ++ fmtInt n) = [.plan n] := by
  have hplan : text "1.." = [49, 46, 46] := by decide
  have hdigits : 10 ∉ text "1.." ++ decimalDigits n := by
    rw [List.mem_append, not_or]
    refine ⟨by decide, fun hm => ?_⟩
    have hd := isDigit_of_mem_decimalDigits hm
    simp [isDigit] at hd
  have hnum : leadingNumber (decimalDigits n ++ []) = some n := leadingNumber_decimalDigits n rfl
  rw [List.append_nil] at hnum
  have hline : tapLine? (text "1.." ++ decimalDigits n) = some (.plan n) := by
    rw [tapLine?, if_pos (List.prefix_append ..), hplan]
    exact congrArg (Option.map TapLine.plan) hnum
  rw [fmtInt_natCast, readTap, List.splitOn_eq_singleton hdigits, List.filterMap_cons, hline]
  rfl

/-! ## reading it back -/

/-- What the reader finds in the lines of results that are numbered from `n` on. -/
def foundLines (results : List TestResult) (n : Nat) : List TapLine :=
  (results.zipIdx n).flatMap fun p => .test (p.1.rtype = .pass) (some p.2) :: strayLines p.1

/-- The reader and the counter, event by event. -/
theorem TapEvents.read {n m : Nat} {calls : List LogCall} {results : List TestResult}
    (h : TapEvents n calls results m) (rest : List UInt8) :
    readTap (tapText calls ++ rest) = foundLines results (n + 1) ++ readTap rest ∧
      m = n + results.length := by
  induction h with
  | nil n => exact ⟨rfl, rfl⟩
  | @result n m calls results c tr hevt hobj hnum h ih =>
      obtain ⟨hread, hm⟩ := ih
      have hnum' : c.numTestsRun = n + 1 := by
        rw [hnum, hevt]
        rfl
      have htext : (tapLfun c).flatten = tapHead tr c.numTestsRun ++ tapDescription tr ++ [10] := by
        have hnl : text "\n" = [10] := by decide
        simp [tapLfun, hevt, hobj, tapHead, tapDescription, hnl]
      have hchunk : tapText (c :: calls) ++ rest =
          tapHead tr c.numTestsRun ++ tapDescription tr ++ 10 :: (tapText calls ++ rest) := by
        rw [tapText, List.flatMap_cons, htext, ← tapText]
        simp
      refine ⟨?_, ?_⟩
      · rw [hchunk, readTap_append, readTap_result, hread, hnum', foundLines, foundLines,
          List.zipIdx_cons, List.flatMap_cons]
        simp
      · rw [hm, hnum', List.length_cons]
        omega
  | @other n m calls results c hevt hnum h ih =>
      have hsilent : tapLfun c = [] ∧ tapCount c.evt n = n := by
        obtain ⟨lg, evt, obj, stats, rs, num⟩ := c
        cases evt <;> simp at hevt <;> exact ⟨rfl, rfl⟩
      have htext : tapText (c :: calls) = tapText calls := by
        rw [tapText, List.flatMap_cons, hsilent.1]
        rfl
      rw [hsilent.2] at hnum
      rw [htext, ← hnum]
      exact ih

/-- What the reader finds in a log. -/
theorem TapCalls.read {calls : List LogCall} {results : List TestResult}
    (h : TapCalls calls results) :
    readTap (tapText calls) = foundLines results 1 ++ [.plan results.length] := by
  cases h with
  | @mk n m calls results first last hfirst hnum h hlast hplan =>
      rw [hfirst] at hnum
      have hzero : first.numTestsRun = 0 := hnum
      rw [hzero] at h
      have htext : tapText (first :: calls ++ [last]) =
          tapText calls ++ (text "1.." ++ fmtInt last.numTestsRun ++ 10 :: []) := by
        have hnl : text "\n" = [10] := by decide
        simp [tapText, tapLfun, hfirst, hlast, hnl]
      obtain ⟨hread, hm⟩ := h.read (text "1.." ++ fmtInt last.numTestsRun ++ 10 :: [])
      have hlen : last.numTestsRun = results.length := by
        rw [hplan, hlast, hm]
        exact Nat.zero_add _
      rw [htext, hread, readTap_append, readTap_plan, hlen]
      rfl

theorem length_le_foundLines (results : List TestResult) (n : Nat) :
    results.length ≤ (foundLines results n).length := by
  induction results generalizing n with
  | nil => exact Nat.zero_le _
  | cons tr results ih =>
      rw [foundLines, List.zipIdx_cons, List.flatMap_cons, ← foundLines]
      simp only [List.length_cons, List.length_append]
      have := ih (n + 1)
      omega

/-- The lines that should be found are found alone if there are no stray ones. -/
theorem foundLines_eq_iff (results : List TestResult) (n : Nat) :
    foundLines results n = (results.zipIdx n).map (fun p => .test (p.1.rtype = .pass) (some p.2)) ↔
      ∀ tr ∈ results, OneTapLine tr := by
  induction results generalizing n with
  | nil => exact iff_of_true rfl fun _ h => absurd h List.not_mem_nil
  | cons tr results ih =>
      rw [foundLines, List.zipIdx_cons, List.flatMap_cons, ← foundLines, List.map_cons,
        List.forall_mem_cons, ← strayLines_eq_nil_iff, List.cons_append, List.cons_inj_right]
      constructor
      · -- by length: there are at least as many lines as results
        intro (h : strayLines tr ++ foundLines results (n + 1) = _)
        have hle := length_le_foundLines results (n + 1)
        have hlen := congrArg List.length h
        rw [List.length_append, List.length_map, List.length_zipIdx] at hlen
        have hnil : strayLines tr = [] := List.length_eq_zero_iff.mp (by omega)
        rw [hnil, List.nil_append] at h
        exact ⟨hnil, (ih (n + 1)).mp h⟩
      · rintro ⟨hnil, hrest⟩
        rw [hnil, List.nil_append]
        exact (ih (n + 1)).mpr hrest

/-- **Reading a TAP log back**: for every sequence of results, the reader finds one
test line for each of them, in order and numbered from `1` on, `ok` for those that
passed, and the plan, and nothing else, if and only if no line that begins within a
name or a message looks like a test line or a plan line. -/
theorem tap_read_back_iff {calls : List LogCall} {results : List TestResult}
    (h : TapCalls calls results) :
    readTap (tapText calls) = tapReport results ↔ ∀ tr ∈ results, OneTapLine tr := by
  rw [h.read, tapReport, List.append_left_inj]
  exact foundLines_eq_iff results 1

namespace Sample

/-- A result with the given verdict and message. -/
def tapResult (rtype : TestResultType) (msg : String) : TestResult :=
  { trCreate with
    rtype := rtype, file := some (.lit "t.c"), tcname := some (.lit "tc"), tname := some (.lit "t")
    msg := some (.lit msg) }

/-- A call of the TAP logger. -/
def tapCall (evt : ClEvent) (obj : LogObj) (num : Nat) : LogCall :=
  ⟨⟨.named (.lit "log"), .tapLfun, true, .normal⟩, evt, obj, ⟨0, 0, 0⟩, [], num,
    ⟨none, ⟨0, 0⟩, ⟨0, 0⟩⟩, ⟨⟨0, 0⟩, .empty⟩⟩

/-- The calls for a run of one suite with one test. -/
def tapCalls (tr : TestResult) : List LogCall :=
  [tapCall .initlogSr .null 0, tapCall .startSr .null 0, tapCall .startS (.suite 0 (.lit "s")) 0,
    tapCall .startT (.testName (.lit "tc:t")) 0, tapCall .endT (.result tr) 1,
    tapCall .endS (.suite 0 (.lit "s")) 1, tapCall .endSr .null 1, tapCall .endlogSr .null 1]

theorem tapCalls_tapCalls (tr : TestResult) : TapCalls (tapCalls tr) [tr] :=
  .mk (n := 0) (tapCall .initlogSr .null 0) (tapCall .endlogSr .null 1) rfl rfl
    (.other (tapCall .startSr .null 0) (by decide) rfl <|
      .other (tapCall .startS (.suite 0 (.lit "s")) 0) (by decide) rfl <|
      .other (tapCall .startT (.testName (.lit "tc:t")) 0) (by decide) rfl <|
      .result (tapCall .endT (.result tr) 1) tr rfl rfl rfl <|
      .other (tapCall .endS (.suite 0 (.lit "s")) 1) (by decide) rfl <|
      .other (tapCall .endSr .null 1) (by decide) rfl <| .nil 1)
    rfl rfl

end Sample

/-- A failure whose message has two lines. -/
theorem tap_read_back_iff_two_lines :
    readTap (tapText (Sample.tapCalls (Sample.tapResult .failure "x\ny"))) =
      tapReport [Sample.tapResult .failure "x\ny"] :=
  (tap_read_back_iff (Sample.tapCalls_tapCalls _)).mpr (by decide +kernel)

/-- A failing test whose message has a second line `ok 1`: the reader finds two test
lines with the number `1`, one of them `ok`. -/
theorem tap_forged_by_message :
    TapCalls (Sample.tapCalls (Sample.tapResult .failure "x\nok 1"))
        [Sample.tapResult .failure "x\nok 1"] ∧
      readTap (tapText (Sample.tapCalls (Sample.tapResult .failure "x\nok 1"))) =
        [.test false (some 1), .test true (some 1), .plan 1] ∧
      readTap (tapText (Sample.tapCalls (Sample.tapResult .failure "x\nok 1"))) ≠
        tapReport [Sample.tapResult .failure "x\nok 1"] := by
  refine ⟨Sample.tapCalls_tapCalls _, ?_, ?_⟩
  · decide +kernel
  · decide +kernel

end LibCheck
