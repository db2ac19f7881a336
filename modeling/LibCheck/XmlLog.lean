import LibCheck.XmlParts
import LibCheck.TapReader
import LibCheck.Closed

/-!
# LibCheck.XmlLog

The text of an XML log (`xml_lfun` of `check_log.c`, `tr_xmlprint` of
`check_print.c`).

* `XmlCalls` — the calls of the logger from the begin of a log to its end.
* `xmlText_eq` — what they write: an element for each suite and each result, with
  a line for each of their fields.
* `logParts` — the source path and the name of a test are written as they come, in
  a frame of markup and of text without markup.
-/

namespace LibCheck

open Xml (encodeUtf8 normalizeEol)

/-! ## the log -/

/-- Calls of `xml_lfun` that write nothing. -/
def XmlSilent (c : LogCall) : Prop := c.evt ∈ [ClEvent.startSr, .endSr, .startT]

/-- Calls of `xml_lfun` within a suite, and the results that they are given. -/
inductive XmlTests : List LogCall → List TestResult → Prop where
  | nil : XmlTests [] []
  | result {calls : List LogCall} {results : List TestResult} (c : LogCall) (tr : TestResult)
      (hevt : c.evt = .endT) (hobj : c.obj = .result tr) (h : XmlTests calls results) :
      XmlTests (c :: calls) (tr :: results)
  | silent {calls : List LogCall} {results : List TestResult} (c : LogCall) (hevt : XmlSilent c)
      (h : XmlTests calls results) : XmlTests (c :: calls) results

/-- Calls of `xml_lfun` between the first one and the last one for a log, and the suites
with their results. -/
inductive XmlSuites : List LogCall → List (CStr × List TestResult) → Prop where
  | nil : XmlSuites [] []
  | suite {tests calls : List LogCall} {results : List TestResult}
      {suites : List (CStr × List TestResult)} (first last : LogCall) (id : SuiteId) (name : CStr)
      (hfirst : first.evt = .startS) (hobj : first.obj = .suite id name)
        (htests : XmlTests tests results)
      (hlast : last.evt = .endS) (h : XmlSuites calls suites) :
      XmlSuites (first :: tests ++ last :: calls) ((name, results) :: suites)
  | silent {calls : List LogCall} {suites : List (CStr × List TestResult)} (c : LogCall)
      (hevt : XmlSilent c) (h : XmlSuites calls suites) : XmlSuites (c :: calls) suites

/-- The calls of `xml_lfun` for one log. -/
inductive XmlCalls : List LogCall → List (CStr × List TestResult) → Prop where
  | mk {calls : List LogCall} {suites : List (CStr × List TestResult)} (first last : LogCall)
      (hfirst : first.evt = .initlogSr) (h : XmlSuites calls suites)
        (hlast : last.evt = .endlogSr) :
      XmlCalls (first :: calls ++ [last]) suites

/-- What the calls write. -/
def xmlText (x : Ctx) (clock : XmlClock) (calls : List LogCall) : List UInt8 :=
  calls.flatMap fun c => (xmlLfun x clock c).flatten

/-- An element on a line of its own. -/
def xmlLine (pad nm value : List UInt8) : List UInt8 :=
  pad ++ 60 :: (nm ++ 62 :: (value ++ 60 :: 47 :: (nm ++ [62, 10])))

/-- The elements of a `<test>` after its `<id>`: their names and texts. -/
def testRest (cfg : Config) (tr : TestResult) (tcname msg : CStr) :
    List (List UInt8 × List UInt8) :=
  let d := tr.duration.toInt
  [(text "iteration", fmtInt tr.iter),
    (text "duration", fmtInt (if d < 0 then -1 else d / 1000000) ++ text "." ++
      fmtMicros (if d < 0 then 0 else d % 1000000)),
    (text "description", fprintXmlEsc cfg tcname), (text "message", fprintXmlEsc cfg msg)]

/-- The elements of a `<test>`. -/
def testLines (cfg : Config) (tr : TestResult) (tcname msg : CStr) :
    List (List UInt8 × List UInt8) :=
  [(text "path", (xmlPathName tr.file).1),
    (text "fn", (xmlPathName tr.file).2 ++ (text ":" ++ fmtInt tr.line.toInt)),
    (text "id", fmtStr tr.tname)] ++ testRest cfg tr tcname msg

/-- The tags of the lines of a `<test>`. -/
theorem text_tags : ∀ nm ∈ ["path", "fn", "id", "iteration", "duration", "description", "message"],
    text ("      <" ++ nm ++ ">") = text "      " ++ 60 :: (text nm ++ [62]) ∧
      text ("</" ++ nm ++ ">\n") = 60 :: 47 :: (text nm ++ [62, 10]) := by
  decide +kernel

theorem trXmlprint_eq {cfg : Config} {tr : TestResult} {result : List UInt8} {tcname msg : CStr}
    (hresult : xmlResult tr.rtype = some result) (htcname : tr.tcname = some tcname)
    (hmsg : tr.msg = some msg) :
    trXmlprint cfg tr = some (text "    <test result=\"" ++ result ++ text "\">\n" ++
      (testLines cfg tr tcname msg).flatMap (fun l => xmlLine (text "      ") l.1 l.2) ++
      text "    </test>\n") := by
  have htags := text_tags
  simp only [List.forall_mem_cons, String.reduceAppend] at htags
  rw [trXmlprint, hresult, htcname, hmsg]
  simp only [Option.bind_eq_bind, Option.bind_some, htags, testLines, testRest, List.cons_append,
    List.nil_append, List.flatMap_cons, List.flatMap_nil, xmlLine, List.append_assoc,
    List.append_nil]
  rfl


/-- The elements of one result. -/
def resultText (cfg : Config) (tr : TestResult) : List UInt8 := (trXmlprint cfg tr).getD []

/-- The element of a suite. -/
def suiteText (cfg : Config) (s : CStr × List TestResult) : List UInt8 :=
  text "  <suite>\n" ++ xmlLine (text "    ") (text "title") (fprintXmlEsc cfg s.1) ++
    s.2.flatMap (resultText cfg) ++ text "  </suite>\n"

/-- What stands before the root element, between the markup. -/
def stylesheet : List UInt8 :=
  text "type=\"text/xsl\" href=\"http://check.sourceforge.net/xml/check_unittest.xslt\""

/-- The tag of the root element. -/
def rootTag : List UInt8 := text "testsuites xmlns=\"http://check.sourceforge.net/ns\""

/-- The text before the root element. -/
def xmlProlog : List UInt8 :=
  text "<?xml version=\"1.0\"?>\n<?xml-stylesheet " ++ stylesheet ++ text "?>\n"

/-- The text of a log. -/
def logText (x : Ctx) (clock : XmlClock) (suites : List (CStr × List TestResult)) : List UInt8 :=
  xmlProlog ++ 60 :: (rootTag ++ [62, 10]) ++
    xmlLine (text "  ") (text "datetime") clock.datetime.bytes ++ suites.flatMap
      (suiteText x.cfg) ++
    xmlLine (text "  ") (text "duration") (fmtInt (clock.elapsed / 1000000) ++ text "." ++
      fmtMicros (clock.elapsed % 1000000)) ++ text "</testsuites>\n"

theorem XmlSilent.text {x : Ctx} {clock : XmlClock} {c : LogCall} (h : XmlSilent c) :
    xmlLfun x clock c = [] := by
  unfold XmlSilent at h
  unfold xmlLfun
  simp only [List.mem_cons, List.not_mem_nil, or_false] at h
  rcases h with h | h | h <;> simp only [h]

theorem xmlText_tests (x : Ctx) (clock : XmlClock) {calls : List LogCall}
    {results : List TestResult}
    (h : XmlTests calls results) : xmlText x clock calls = results.flatMap (resultText x.cfg) := by
  unfold xmlText
  induction h with
  | nil => rfl
  | result c tr hevt hobj _ ih =>
      have hcall : (xmlLfun x clock c).flatten = resultText x.cfg tr := by
        rw [xmlLfun, hevt, hobj]
        show (trXmlprint x.cfg tr).toList.flatten = (trXmlprint x.cfg tr).getD []
        cases trXmlprint x.cfg tr with
        | none => rfl
        | some bytes => simp
      rw [List.flatMap_cons, List.flatMap_cons, hcall, ih]
  | silent c hevt _ ih => rw [List.flatMap_cons, hevt.text, ih, List.flatten_nil, List.nil_append]

theorem xmlText_suites (x : Ctx) (clock : XmlClock) {calls : List LogCall}
    {suites : List (CStr × List TestResult)} (h : XmlSuites calls suites) :
    xmlText x clock calls = suites.flatMap (suiteText x.cfg) := by
  induction h with
  | nil => rfl
  | @suite tests calls results suites first last id name hfirst hobj htests hlast _ ih =>
      have htitle : text "  <suite>\n    <title>" =
          text "  <suite>\n" ++ (text "    " ++ 60 :: (text "title" ++ [62])) := by decide
      have hend : text "</title>\n" = 60 :: 47 :: (text "title" ++ [62, 10]) := by decide
      have hopen : (xmlLfun x clock first).flatten =
          text "  <suite>\n" ++ xmlLine (text "    ") (text "title") (fprintXmlEsc x.cfg name) := by
        rw [xmlLfun, hfirst, hobj]
        simp [htitle, hend, xmlLine]
      have hclose : (xmlLfun x clock last).flatten = text "  </suite>\n" := by
        rw [xmlLfun, hlast]
        simp
      have htests' := xmlText_tests x clock htests
      rw [xmlText] at ih htests' ⊢
      simp only [List.cons_append, List.flatMap_cons, List.flatMap_append, hopen,
        hclose, htests', ih,
        suiteText, List.append_assoc]
  | silent c hevt _ ih =>
      rw [xmlText] at ih ⊢
      rw [List.flatMap_cons, hevt.text, ih, List.flatten_nil, List.nil_append]

/-- The calls for a log write its text. -/
theorem xmlText_eq {x : Ctx} {clock : XmlClock} {calls : List LogCall}
    {suites : List (CStr × List TestResult)} (h : XmlCalls calls suites) :
    xmlText x clock calls = logText x clock suites := by
  obtain ⟨first, last, hfirst, hsuites, hlast⟩ := h
  have hopen : (xmlLfun x clock first).flatten = xmlProlog ++ 60 :: (rootTag ++ [62, 10]) ++
      xmlLine (text "  ") (text "datetime") clock.datetime.bytes := by
    have hhead : text ("<?xml version=\"1.0\"?>\n<?xml-stylesheet type=\"text/xsl\" " ++
        "href=\"http://check.sourceforge.net/xml/check_unittest.xslt\"?>\n" ++
        "<testsuites xmlns=\"http://check.sourceforge.net/ns\">\n  <datetime>") =
          xmlProlog ++ 60 :: (rootTag ++ [62, 10]) ++
            (text "  " ++ 60 :: (text "datetime" ++ [62])) := by decide +kernel
    have hend : text "</datetime>\n" = 60 :: 47 :: (text "datetime" ++ [62, 10]) := by decide
    rw [xmlLfun, hfirst]
    simp only [hhead, hend, xmlLine, List.flatten_singleton, List.append_assoc, List.cons_append,
      List.nil_append]
  have hclose : (xmlLfun x clock last).flatten =
      xmlLine (text "  ") (text "duration") (fmtInt (clock.elapsed / 1000000) ++ text "." ++
        fmtMicros (clock.elapsed % 1000000)) ++ text "</testsuites>\n" := by
    have htag : text "  <duration>" = text "  " ++ 60 :: (text "duration" ++ [62]) := by decide
    have hend : text "</duration>\n</testsuites>\n" =
        60 :: 47 :: (text "duration" ++ [62, 10]) ++ text "</testsuites>\n" := by decide
    rw [xmlLfun, hlast]
    simp [htag, hend, xmlLine]
  have hmid := xmlText_suites x clock hsuites
  rw [xmlText] at hmid ⊢
  simp only [List.flatMap_append, List.flatMap_cons, List.flatMap_nil, hopen, hclose, hmid, logText,
    List.append_nil, List.append_assoc]


/-! ## the frame of the log -/

/-- Printable ASCII but `<`, and line feeds. -/
def IsFrameByte (b : UInt8) : Prop := (b = 10 ∨ 32 ≤ b ∧ b ≤ 126) ∧ b ≠ 60

instance (b : UInt8) : Decidable (IsFrameByte b) := inferInstanceAs (Decidable (_ ∧ _))

/-- What a number or a date is printed with. -/
def IsNumberByte (b : UInt8) : Prop := isDigit b ∨ b ∈ [(45 : UInt8), 46, 58, 32]

theorem IsNumberByte.frame {b : UInt8} (h : IsNumberByte b) : IsFrameByte b := by
  have hall : ∀ n : Fin 256, IsNumberByte (UInt8.ofNat n) → IsFrameByte (UInt8.ofNat n) := by
    unfold IsNumberByte
    decide +kernel
  have hb := hall ⟨b.toNat, b.toNat_lt⟩
  simp only [UInt8.ofNat_toNat] at hb
  exact hb h

theorem fmtInt_number {i : Int} {b : UInt8} (h : b ∈ fmtInt i) : IsNumberByte b := by
  cases i with
  | ofNat n =>
      rw [Int.ofNat_eq_natCast, fmtInt_natCast] at h
      exact .inl (isDigit_of_mem_decimalDigits h)
  | negSucc n =>
      have hstr : (toString (Int.negSucc n)).toList = '-' :: Nat.toDigits 10 (n + 1) := by
        show (Int.repr (Int.negSucc n)).toList = _
        simp [Int.repr, Nat.repr]
      have hmem : b ∈ ('-' :: Nat.toDigits 10 (n + 1)).map fun c => UInt8.ofNat c.toNat := by
        rw [← hstr]
        exact (List.takeWhile_sublist _).subset h
      rcases List.mem_cons.mp hmem with rfl | hm
      · exact .inr (by decide)
      · exact .inl (isDigit_of_mem_decimalDigits hm)

theorem fmtMicros_number {i : Int} {b : UInt8} (h : b ∈ fmtMicros i) : IsNumberByte b := by
  rcases List.mem_append.mp h with h | h
  · exact .inl (by rw [List.eq_of_mem_replicate h]; decide)
  · exact fmtInt_number h

theorem fprintXmlEsc_frame {cfg : Config} {str : CStr} {b : UInt8} (h : b ∈ fprintXmlEsc cfg str) :
    IsFrameByte b := by
  rcases fprintXmlEsc_plain cfg str b h with rfl | ⟨hlow, hhigh, hspecial⟩
  · decide
  · exact ⟨.inr ⟨hlow, hhigh⟩, fun he => hspecial (by simp [he])⟩

/-- A date as `strftime` prints it for `"%Y-%m-%d %H:%M:%S"`. -/
def IsDate (t : CStr) : Prop := ∀ b ∈ t.bytes, IsNumberByte b

/-- The elements that hold what is written as it comes. -/
def partNames : List (List Char) := ["path".toList, "fn".toList, "id".toList]

/-- The pieces of an element that is not one of them. -/
def lineParts (pad nm value : List UInt8) : List Part :=
  [.data pad, .markup nm, .data value, .markup (47 :: nm), .data [10]]

theorem bytes_lineParts (pad nm value : List UInt8) :
    (lineParts pad nm value).flatMap Part.bytes = xmlLine pad nm value := by
  simp [lineParts, Part.bytes, xmlLine]

/-- The pieces of one that is. -/
def rawParts (nm raw tail : List UInt8) : List Part :=
  [.data (text "      "), .field nm raw tail, .data [10]]

theorem bytes_rawParts (nm raw tail : List UInt8) :
    (rawParts nm raw tail).flatMap Part.bytes = xmlLine (text "      ") nm (raw ++ tail) := by
  simp [rawParts, Part.bytes, xmlLine]

/-- The pieces of a result. -/
def resultParts (cfg : Config) (tr : TestResult) (result : List UInt8)
    (tcname msg : CStr) : List Part :=
  [.data (text "    "), .markup (text "test result=\"" ++ result ++ [34]), .data [10]] ++
    (rawParts (text "path") (xmlPathName tr.file).1 [] ++
      (rawParts (text "fn") (xmlPathName tr.file).2 (text ":" ++ fmtInt tr.line.toInt) ++
        rawParts (text "id") (fmtStr tr.tname) [])) ++
    (testRest cfg tr tcname msg).flatMap (fun l => lineParts (text "      ") l.1 l.2) ++
    [.data (text "    "), .markup (text "/test"), .data [10]]

theorem resultText_eq {cfg : Config} {tr : TestResult} {result : List UInt8} {tcname msg : CStr}
    (hresult : xmlResult tr.rtype = some result) (htcname : tr.tcname = some tcname)
    (hmsg : tr.msg = some msg) :
    resultText cfg tr = (resultParts cfg tr result tcname msg).flatMap Part.bytes := by
  have hopen : text "    <test result=\"" = text "    " ++ 60 :: text "test result=\"" := by decide
  have hend : text "\">\n" = [34, 62, 10] := by decide
  have hclose : text "    </test>\n" = text "    " ++ 60 :: (text "/test" ++ [62, 10]) := by decide
  have hrest : ((testRest cfg tr tcname msg).flatMap fun l =>
      lineParts (text "      ") l.1 l.2).flatMap Part.bytes =
        (testRest cfg tr tcname msg).flatMap fun l => xmlLine (text "      ") l.1 l.2 := by
    rw [List.flatMap_assoc]
    simp only [bytes_lineParts]
  rw [resultText, trXmlprint_eq hresult htcname hmsg, Option.getD_some, resultParts, testLines]
  simp only [List.flatMap_append, hrest, bytes_rawParts, hopen, hend, hclose]
  simp [Part.bytes]

/-- A result that `tr_xmlprint` can print. -/
structure Printed (tr : TestResult) : Prop where
  classified : tr.Classified
  tcname : tr.tcname ≠ none
  tname : tr.tname ≠ none

/-- The value of its `result` attribute. -/
def resultName (tr : TestResult) : List UInt8 := (xmlResult tr.rtype).getD []

/-- The pieces of a log -/
def suiteParts (cfg : Config) (s : CStr × List TestResult) : List Part :=
  [.data (text "  "), .markup (text "suite"), .data [10]] ++
    lineParts (text "    ") (text "title") (fprintXmlEsc cfg s.1) ++
    s.2.flatMap (fun tr => resultParts cfg tr (resultName tr) (tr.tcname.getD .empty)
      (tr.msg.getD .empty)) ++
    [.data (text "  "), .markup (text "/suite"), .data [10]]

/-- The pieces of a log. -/
def logParts (x : Ctx) (clock : XmlClock) (suites : List (CStr × List TestResult)) : List Part :=
  [.markup (text "?xml version=\"1.0\"?"), .data [10],
    .markup (text "?xml-stylesheet " ++ stylesheet ++ [63]), .data [10], .markup rootTag,
      .data [10]] ++
    lineParts (text "  ") (text "datetime") clock.datetime.bytes ++
    suites.flatMap (suiteParts x.cfg) ++
    lineParts (text "  ") (text "duration") (fmtInt (clock.elapsed / 1000000) ++ text "." ++
      fmtMicros (clock.elapsed % 1000000)) ++
    [.markup (text "/testsuites"), .data [10]]

theorem Printed.resultText {cfg : Config} {tr : TestResult} (h : Printed tr) :
    LibCheck.resultText cfg tr =
      (resultParts cfg tr (resultName tr) (tr.tcname.getD .empty) (tr.msg.getD .empty)).flatMap
        Part.bytes := by
  obtain ⟨tcname, htcname⟩ := Option.ne_none_iff_exists'.mp h.tcname
  obtain ⟨msg, hmsg⟩ := Option.ne_none_iff_exists'.mp h.classified.2
  have hresult : xmlResult tr.rtype = some (resultName tr) := by
    unfold resultName
    rcases h.classified.1 with he | he | he <;> rw [he] <;> rfl
  rw [resultText_eq hresult htcname hmsg, htcname, hmsg, Option.getD_some, Option.getD_some]

theorem suiteText_eq {cfg : Config} {s : CStr × List TestResult} (h : ∀ tr ∈ s.2, Printed tr) :
    suiteText cfg s = (suiteParts cfg s).flatMap Part.bytes := by
  have hopen : text "  <suite>\n" = text "  " ++ 60 :: (text "suite" ++ [62, 10]) := by decide
  have hclose : text "  </suite>\n" = text "  " ++ 60 :: (text "/suite" ++ [62, 10]) := by decide
  have hresults : s.2.flatMap (resultText cfg) = (s.2.flatMap fun tr => resultParts cfg tr
      (resultName tr) (tr.tcname.getD .empty) (tr.msg.getD .empty)).flatMap Part.bytes := by
    rw [List.flatMap_assoc]
    exact List.flatMap_congr fun tr htr => (h tr htr).resultText
  rw [suiteText, suiteParts, hopen, hclose, hresults]
  simp only [List.flatMap_append, bytes_lineParts]
  simp [Part.bytes]

theorem logText_eq {x : Ctx} {clock : XmlClock} {suites : List (CStr × List TestResult)}
    (h : ∀ s ∈ suites, ∀ tr ∈ s.2, Printed tr) :
    logText x clock suites = (logParts x clock suites).flatMap Part.bytes := by
  have hprolog : xmlProlog = 60 :: (text "?xml version=\"1.0\"?" ++ 62 :: 10 :: 60 ::
      (text "?xml-stylesheet " ++ stylesheet ++ [63, 62, 10])) := by decide +kernel
  have hclose : text "</testsuites>\n" = 60 :: (text "/testsuites" ++ [62, 10]) := by decide
  have hsuites : suites.flatMap (suiteText x.cfg) =
      (suites.flatMap (suiteParts x.cfg)).flatMap Part.bytes := by
    rw [List.flatMap_assoc]
    exact List.flatMap_congr fun s hs => suiteText_eq (h s hs)
  rw [logText, logParts, hclose, hsuites, hprolog]
  simp only [List.flatMap_append, bytes_lineParts]
  simp [Part.bytes]

/-! ## the frame -/

/-- ASCII in which nothing but the parts holds a `<` or has the name of their
elements. -/
def InFrame (p : Part) : Prop := p.Ascii ∧ p.Framed partNames

/-- The name of an element that holds no part. -/
structure IsFrameName (nm : List UInt8) : Prop where
  frame : ∀ b ∈ nm, IsFrameByte b
  start : Xml.tagName (latin1 nm) ∉ partNames
  stop : Xml.tagName (latin1 (47 :: nm)) ∉ partNames

instance (nm : List UInt8) : Decidable (IsFrameName nm) :=
  decidable_of_iff ((∀ b ∈ nm, IsFrameByte b) ∧ partNames.elem (Xml.tagName (latin1 nm)) = false ∧
      partNames.elem (Xml.tagName (latin1 (47 :: nm))) = false) <| by
    simp only [List.elem_eq_contains, List.contains_eq_mem, decide_eq_false_iff_not]
    exact ⟨fun h => ⟨h.1, h.2.1, h.2.2⟩, fun h => ⟨h.1, h.2, h.3⟩⟩

theorem IsFrameByte.ascii {b : UInt8} (h : IsFrameByte b) : b < 128 ∧ b ≠ 13 ∧ b ≠ 60 := by
  obtain ⟨rfl | ⟨hlow, hhigh⟩, hlt⟩ := h
  · decide
  · refine ⟨UInt8.lt_of_le_of_lt hhigh (by decide), ?_, hlt⟩
    rintro rfl
    exact absurd hlow (by decide)

theorem inFrame_data {bytes : List UInt8} (h : ∀ b ∈ bytes, IsFrameByte b) :
    InFrame (.data bytes) :=
  ⟨fun b hb => ⟨(h b hb).ascii.1, (h b hb).ascii.2.1⟩, fun hm => (h 60 hm).ascii.2.2 rfl⟩

theorem inFrame_markup {body : List UInt8} (h : ∀ b ∈ body, IsFrameByte b)
    (hname : Xml.tagName (latin1 body) ∉ partNames) : InFrame (.markup body) :=
  ⟨fun b hb => ⟨(h b hb).ascii.1, (h b hb).ascii.2.1⟩, fun hm => (h 60 hm).ascii.2.2 rfl, hname⟩

theorem inFrame_lineParts {pad nm value : List UInt8} (hpad : ∀ b ∈ pad, IsFrameByte b)
    (hnm : IsFrameName nm) (hvalue : ∀ b ∈ value, IsFrameByte b) :
    ∀ p ∈ lineParts pad nm value, InFrame p := by
  have hend : ∀ b ∈ 47 :: nm, IsFrameByte b := List.forall_mem_cons.mpr ⟨by decide, hnm.frame⟩
  simp only [lineParts, List.forall_mem_cons]
  exact ⟨inFrame_data hpad, inFrame_markup hnm.frame hnm.start, inFrame_data hvalue,
    inFrame_markup hend hnm.stop, inFrame_data (by decide), by simp⟩

theorem inFrame_rawParts {nm raw tail : List UInt8} (hnm : nm ∈ [text "path", text "fn", text "id"])
    (htail : ∀ b ∈ tail, IsNumberByte b) : ∀ p ∈ rawParts nm raw tail, InFrame p := by
  have hall : ∀ nm ∈ [text "path", text "fn", text "id"],
      (∀ b ∈ nm, b < 128 ∧ b ≠ 13) ∧ latin1 nm ∈ partNames := by decide
  have hisname : ∀ nm ∈ partNames, Xml.IsName nm := by
    simp only [partNames, List.forall_mem_cons]
    exact ⟨⟨'p', "ath".toList, rfl, by decide, by decide⟩,
      ⟨'f', "n".toList, rfl, by decide, by decide⟩,
      ⟨'i', "d".toList, rfl, by decide, by decide⟩, by simp⟩
  have hfield : InFrame (.field nm raw tail) := by
    refine ⟨⟨(hall nm hnm).1, fun b hb => ?_⟩, (hall nm hnm).2, hisname _ (hall nm hnm).2⟩
    have hascii := (htail b hb).frame.ascii
    refine ⟨hascii.1, hascii.2.1, ?_⟩
    rintro rfl
    exact absurd (htail 10 hb) (by unfold IsNumberByte; decide)
  simp only [rawParts, List.forall_mem_cons]
  exact ⟨inFrame_data (by decide), hfield, inFrame_data (by decide), by simp⟩

theorem testRest_frame {cfg : Config} {tr : TestResult} {tcname msg : CStr} :
    ∀ l ∈ testRest cfg tr tcname msg, IsFrameName l.1 ∧ ∀ b ∈ l.2, IsFrameByte b := by
  have hdot : ∀ b ∈ text ".", IsNumberByte b := by unfold IsNumberByte; decide
  simp only [testRest, List.forall_mem_cons]
  refine ⟨⟨by decide, fun b hb => (fmtInt_number hb).frame⟩, ⟨by decide, fun b hb => ?_⟩,
    ⟨by decide, fun b hb => fprintXmlEsc_frame hb⟩, ⟨by decide, fun b hb => fprintXmlEsc_frame hb⟩,
    by simp⟩
  simp only [List.mem_append] at hb
  rcases hb with (hb | hb) | hb
  · exact (fmtInt_number hb).frame
  · exact (hdot b hb).frame
  · exact (fmtMicros_number hb).frame

theorem forall_append {ps qs : List Part} (hps : ∀ p ∈ ps, InFrame p) (hqs : ∀ p ∈ qs, InFrame p) :
    ∀ p ∈ ps ++ qs, InFrame p := fun p hp => (List.mem_append.mp hp).elim (hps p) (hqs p)

theorem Printed.inFrame {cfg : Config} {tr : TestResult} (h : Printed tr) (tcname msg : CStr) :
    ∀ p ∈ resultParts cfg tr (resultName tr) tcname msg, InFrame p := by
  have hline : ∀ b ∈ text ":" ++ fmtInt tr.line.toInt, IsNumberByte b := by
    intro b hb
    rcases List.mem_append.mp hb with hb | hb
    · rw [List.mem_singleton.mp hb]
      exact .inr (by decide)
    · exact fmtInt_number hb
  have hstart : InFrame (.markup (text "test result=\"" ++ resultName tr ++ [34])) := by
    unfold resultName
    rcases h.classified.1 with he | he | he <;> rw [he] <;> exact inFrame_markup
      (by decide) (by decide)
  refine forall_append (forall_append (forall_append ?_
    (forall_append ?_ (forall_append ?_ ?_))) ?_) ?_
  · simp only [List.forall_mem_cons]
    exact ⟨inFrame_data (by decide), hstart, inFrame_data (by decide), by simp⟩
  · exact inFrame_rawParts (by simp) (by simp)
  · exact inFrame_rawParts (by simp) hline
  · exact inFrame_rawParts (by simp) (by simp)
  · intro p hp
    obtain ⟨l, hl, hp⟩ := List.mem_flatMap.mp hp
    obtain ⟨hname, hvalue⟩ := testRest_frame l hl
    exact inFrame_lineParts (by decide) hname hvalue p hp
  · simp only [List.forall_mem_cons]
    exact ⟨inFrame_data (by decide), inFrame_markup (by decide) (by decide),
      inFrame_data (by decide),
      by simp⟩

/-- The log but for its parts is a frame. -/
theorem inFrame_logParts {x : Ctx} {clock : XmlClock} {suites : List (CStr × List TestResult)}
    (hdate : IsDate clock.datetime) (h : ∀ s ∈ suites, ∀ tr ∈ s.2, Printed tr) :
    ∀ p ∈ logParts x clock suites, InFrame p := by
  have hdot : ∀ b ∈ text ".", IsNumberByte b := by unfold IsNumberByte; decide
  refine forall_append (forall_append (forall_append (forall_append ?_ ?_) ?_) ?_) ?_
  · simp only [List.forall_mem_cons]
    exact ⟨inFrame_markup (by decide) (by decide), inFrame_data (by decide),
      inFrame_markup (by decide +kernel) (by decide +kernel), inFrame_data (by decide),
      inFrame_markup (by decide +kernel) (by decide +kernel), inFrame_data (by decide), by simp⟩
  · exact inFrame_lineParts (by decide) (by decide) fun b hb => (hdate b hb).frame
  · intro p hp
    obtain ⟨s, hs, hp⟩ := List.mem_flatMap.mp hp
    refine forall_append (forall_append (forall_append ?_ ?_) ?_) ?_ p hp
    · simp only [List.forall_mem_cons]
      exact ⟨inFrame_data (by decide), inFrame_markup (by decide) (by decide),
        inFrame_data (by decide), by simp⟩
    · exact inFrame_lineParts (by decide) (by decide) fun b hb => fprintXmlEsc_frame hb
    · intro p hp
      obtain ⟨tr, htr, hp⟩ := List.mem_flatMap.mp hp
      exact (h s hs tr htr).inFrame _ _ p hp
    · simp only [List.forall_mem_cons]
      exact ⟨inFrame_data (by decide), inFrame_markup (by decide) (by decide),
        inFrame_data (by decide), by simp⟩
  · refine inFrame_lineParts (by decide) (by decide) fun b hb => ?_
    simp only [List.mem_append] at hb
    rcases hb with (hb | hb) | hb
    · exact (fmtInt_number hb).frame
    · exact (hdot b hb).frame
    · exact (fmtMicros_number hb).frame
  · simp only [List.forall_mem_cons]
    exact ⟨inFrame_markup (by decide) (by decide), inFrame_data (by decide), by simp⟩

/-! ## what should be read back -/

/-- What is written as it comes of a result: the names of the elements, the parts, and
what follows them. -/
def rawFields (tr : TestResult) : List (List UInt8 × List UInt8 × List UInt8) :=
  [(text "path", (xmlPathName tr.file).1, []),
    (text "fn", (xmlPathName tr.file).2, text ":" ++ fmtInt tr.line.toInt),
    (text "id", fmtStr tr.tname, [])]

theorem part_logParts (x : Ctx) (clock : XmlClock) (suites : List (CStr × List TestResult)) :
    (logParts x clock suites).filterMap Part.part =
      (suites.flatMap Prod.snd).flatMap rawFields := by
  have hline : ∀ pad nm value, (lineParts pad nm value).filterMap Part.part = [] := fun _ _ _ => rfl
  have hresult : ∀ tr tcname msg, (resultParts x.cfg tr
      (resultName tr) tcname msg).filterMap Part.part =
      rawFields tr := by
    intro tr tcname msg
    simp only [resultParts, List.filterMap_append, List.filterMap_flatMap, hline]
    simp [rawParts, rawFields, List.filterMap_cons]
  have hsuite : ∀ s : CStr × List TestResult, (suiteParts x.cfg s).filterMap Part.part =
      s.2.flatMap rawFields := by
    intro s
    simp only [suiteParts, List.filterMap_append, List.filterMap_flatMap, hline, hresult]
    simp [List.filterMap_cons]
  simp only [logParts, List.filterMap_append, List.filterMap_flatMap, hline, hsuite,
    List.flatMap_assoc]
  simp [List.filterMap_cons]

end LibCheck
