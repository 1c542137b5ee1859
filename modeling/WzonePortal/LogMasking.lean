import WzonePortal.MaskTwice
import WzonePortal.PercentFormat

/-! The masking of log records. The filter masks the template and the arguments one by one, before
they are put together, and what it leaves as the arguments is always a tuple. -/
namespace WzonePortal.Masking

open Regex Pattern PercentFormat

structure LogRecord (Obj : Type) where
  msg : Value Obj
  args : Arguments Obj
  attributes : List (String × Value Obj)

/-- The attributes that every record has. -/
def RESERVED : List String :=
  ["name","msg","args","levelname","levelno","pathname","filename","module","exc_text",
    "stack_info","lineno","funcName","created","msecs","relativeCreated","thread","threadName",
    "processName","process","taskName"]

variable {Obj : Type}

/-- What the handlers write; a message that cannot be formatted is lost. -/
def LogRecord.getMessage (py : Conversions Obj) (record : LogRecord Obj) : Option (List Char) :=
  if record.args.truthy then format py (py.asText record.msg) record.args
  else some (py.asText record.msg)

def maskValue (isWord : Char → Bool) : Value Obj → Value Obj
  | .str s | .subclass s _ => .str (maskText isWord s)
  | v => v

def maskAttribute (isWord : Char → Bool) (entry : String × Value Obj) : String × Value Obj :=
  if entry.1 ∈ RESERVED then entry else (entry.1,maskValue isWord entry.2)

def CredentialMaskingFilter.filter (isWord : Char → Bool) (record : LogRecord Obj) :
    Bool × LogRecord Obj :=
  (true,{ msg := maskValue isWord record.msg
          args := if record.args.truthy then .tuple (record.args.values.map (maskValue isWord))
            else record.args
          attributes := record.attributes.map (maskAttribute isWord) })

variable (isWord : Char → Bool) (py : Conversions Obj)

/-- The message behind the filter is the masked message of the record. -/
def LogRecord.RightlyMasked (record : LogRecord Obj) : Prop :=
  ∀ m, record.getMessage py = some m →
    (CredentialMaskingFilter.filter isWord record).2.getMessage py = some (maskText isWord m)

variable {isWord} {py}

/-- The scans of a literal text and of what it stands for. -/
inductive EscapedScan : List (Piece Char) → List (Piece Char) → Prop
  | nil : EscapedScan [] []
  | char {c : Char} {us ts : List (Piece Char)} (h : c ≠ '%') :
      EscapedScan us ts → EscapedScan (.kept c::us) (.kept c::ts)
  | percent {us ts : List (Piece Char)} :
      EscapedScan us ts → EscapedScan (.kept '%'::.kept '%'::us) (.kept '%'::ts)
  | hidden {us ts : List (Piece Char)} (w w' : List Char) :
      EscapedScan us ts → EscapedScan (.hidden w::us) (.hidden w'::ts)

/-- The scans of a template and of its message, part by part: every conversion is kept, and its text
is scanned as it would be alone. The last parts are those that the substitution leaves. -/
inductive Segmentwise (pat : Pattern Char) : List (Segment Obj) → List (Piece Char) →
    List (Piece Char) → List (Segment Obj) → Prop
  | nil : Segmentwise pat [] [] [] []
  | literal {segs segs' : List (Segment Obj)} {us ts us' ts' : List (Piece Char)} :
      EscapedScan us ts → Segmentwise pat segs us' ts' segs' →
      Segmentwise pat (.literal (Piece.source us) (Piece.source ts)::segs) (us++us') (ts++ts')
        (.literal (Piece.shown MASK us) (Piece.shown MASK ts)::segs')
  | conversion {segs segs' : List (Segment Obj)} {us ts : List (Piece Char)} {raw text : List Char}
      {taken : List (Value Obj)} : Segmentwise pat segs us ts segs' →
      Segmentwise pat (.conversion raw text taken::segs) (raw.map .kept++us)
        (pat.pieces text++ts) (.conversion raw (pat.sub MASK text) taken::segs')

/-- One pattern after the other. -/
def Aligned : List (Pattern Char) → List (Segment Obj) → Prop
  | [], _ => True
  | pat::pats, segs => ∃ segs', Segmentwise pat segs (pat.pieces (segs.flatMap Segment.raw))
      (pat.pieces (segs.flatMap Segment.text)) segs' ∧ Aligned pats segs'

theorem EscapedScan.shown {us ts : List (Piece Char)} (h : EscapedScan us ts) :
    Escaped (Piece.shown MASK us) (Piece.shown MASK ts) := by
  induction h with
  | nil => exact .nil
  | char hc _ ih => exact .char hc ih
  | percent _ ih => exact .percent ih
  | hidden w w' _ ih => exact .char (by decide) (.char (by decide) (.char (by decide) ih))

/-- A part whose conversion gives the masked text with the masked arguments. -/
def MasksAlone (isWord : Char → Bool) (py : Conversions Obj) (pats : List (Pattern Char)) :
    Segment Obj → Prop
  | .literal raw text => Escaped raw text
  | .conversion raw text taken =>
    Segment.Gives py raw (maskAll MASK pats text) (taken.map (maskValue isWord))

theorem masksAlone_string (s : List Char) :
    MasksAlone isWord py (patterns isWord) (.conversion "%s".toList s [.str s]) :=
  Segment.gives_s py (.str (maskText isWord s))

theorem masksAlone_of_masked {raw text : List Char} {taken : List (Value Obj)}
    (h : Segment.Gives py raw text taken) (htext : maskText isWord text = text)
    (htaken : taken.map (maskValue isWord) = taken) :
    MasksAlone isWord py (patterns isWord) (.conversion raw text taken) := by
  change Segment.Gives py raw (maskText isWord text) (taken.map (maskValue isWord))
  rw [htext,htaken]
  exact h

/-- A part in which a pattern finds nothing. -/
def Untouched (pat : Pattern Char) : Segment Obj → Prop
  | .literal raw text => Escaped raw text
  | .conversion _ text _ => pat.pieces text = text.map .kept

theorem EscapedScan.of_kept {u t : List Char} (h : Escaped u t) :
    EscapedScan (u.map .kept) (t.map .kept) := by
  induction h with
  | nil => exact .nil
  | char hc _ ih => exact .char hc ih
  | percent _ ih => exact .percent ih

theorem EscapedScan.append {us ts us' ts' : List (Piece Char)} (h : EscapedScan us ts)
    (h' : EscapedScan us' ts') : EscapedScan (us++us') (ts++ts') := by
  induction h with
  | nil => exact h'
  | char hc _ ih => exact .char hc ih
  | percent _ ih => exact .percent ih
  | hidden w w' _ ih => exact .hidden w w' ih

namespace Segmentwise

variable {pat : Pattern Char} {segs segs' : List (Segment Obj)} {us ts : List (Piece Char)}

theorem raw_eq (h : Segmentwise pat segs us ts segs') :
    segs'.flatMap Segment.raw = Piece.shown MASK us := by
  induction h with
  | nil => rfl
  | literal _ _ ih => simp [Segment.raw,ih]
  | conversion _ ih => simp [Segment.raw,ih]

theorem text_eq (h : Segmentwise pat segs us ts segs') :
    segs'.flatMap Segment.text = Piece.shown MASK ts := by
  induction h with
  | nil => rfl
  | literal _ _ ih => simp [Segment.text,ih]
  | conversion _ ih => simp [Segment.text,Pattern.sub,ih]

theorem taken_eq (h : Segmentwise pat segs us ts segs') :
    segs'.flatMap Segment.taken = segs.flatMap Segment.taken := by
  induction h with
  | nil => rfl
  | literal _ _ ih => simp [Segment.taken,ih]
  | conversion _ ih => simp [Segment.taken,ih]

theorem masksAlone {pats : List (Pattern Char)} (h : Segmentwise pat segs us ts segs')
    (halone : ∀ seg ∈ segs, MasksAlone isWord py (pat::pats) seg) :
    ∀ seg ∈ segs', MasksAlone isWord py pats seg := by
  induction h with
  | nil => exact fun _ h => absurd h List.not_mem_nil
  | literal hscan _ ih =>
    rw [List.forall_mem_cons] at halone ⊢
    exact ⟨hscan.shown,ih halone.2⟩
  | conversion _ ih =>
    rw [List.forall_mem_cons] at halone ⊢
    exact ⟨halone.1,ih halone.2⟩

theorem of_untouched (h : ∀ seg ∈ segs, Untouched pat seg) :
    Segmentwise pat segs ((segs.flatMap Segment.raw).map .kept)
      ((segs.flatMap Segment.text).map .kept) segs := by
  induction segs with
  | nil => exact .nil
  | cons seg segs ih =>
    rw [List.forall_mem_cons] at h
    have hlater := ih h.2
    cases seg with
    | literal raw text =>
      have hseg := Segmentwise.literal (EscapedScan.of_kept h.1) hlater
      simpa [Segment.raw,Segment.text] using hseg
    | conversion raw text taken =>
      have hpieces : pat.pieces text = text.map .kept := h.1
      have hseg : Segmentwise pat (.conversion raw text taken::segs) _ _ _ := .conversion hlater
      simpa [Segment.raw,Segment.text,Pattern.sub,hpieces] using hseg

end Segmentwise

theorem Aligned.of_untouched {pats : List (Pattern Char)} {segs : List (Segment Obj)}
    (h : ∀ pat ∈ pats, (∀ seg ∈ segs, Untouched pat seg) ∧
      pat.pieces (segs.flatMap Segment.raw) = (segs.flatMap Segment.raw).map .kept ∧
      pat.pieces (segs.flatMap Segment.text) = (segs.flatMap Segment.text).map .kept) :
    Aligned pats segs := by
  induction pats with
  | nil => trivial
  | cons pat pats ih =>
    rw [List.forall_mem_cons] at h
    obtain ⟨⟨hsegs,hraw,htext⟩,hlater⟩ := h
    refine ⟨segs,?_,ih hlater⟩
    rw [hraw,htext]
    exact .of_untouched hsegs

theorem Aligned.exists_masked {pats : List (Pattern Char)} {segs : List (Segment Obj)}
    (h : Aligned pats segs) (halone : ∀ seg ∈ segs, MasksAlone isWord py pats seg) :
    ∃ segs' : List (Segment Obj), (∀ seg ∈ segs', MasksAlone isWord py [] seg) ∧
      segs'.flatMap Segment.raw = maskAll MASK pats (segs.flatMap Segment.raw) ∧
      segs'.flatMap Segment.text = maskAll MASK pats (segs.flatMap Segment.text) ∧
      segs'.flatMap Segment.taken = segs.flatMap Segment.taken := by
  induction pats generalizing segs with
  | nil => exact ⟨segs,halone,rfl,rfl,rfl⟩
  | cons pat pats ih =>
    obtain ⟨segs',hseg,haligned⟩ := h
    obtain ⟨segs'',halone',hraw,htext,htaken⟩ := ih haligned (hseg.masksAlone halone)
    refine ⟨segs'',halone',?_,?_,htaken.trans hseg.taken_eq⟩
    · rw [hraw,hseg.raw_eq]
      rfl
    · rw [htext,hseg.text_eq]
      rfl

/-- No part of the template is masked together with another one: it is cut into literal texts and
conversions, each conversion gives the masked text with the masked arguments, and no match of a
pattern hides more than what it hides in one of the parts. -/
def PartByPart (isWord : Char → Bool) (py : Conversions Obj) (template : List Char)
    (vs : List (Value Obj)) : Prop :=
  ∃ segs : List (Segment Obj), segs.flatMap Segment.raw = template ∧
    segs.flatMap Segment.taken = vs ∧ (∀ seg ∈ segs, seg.Forms py) ∧
    (∀ seg ∈ segs, MasksAlone isWord py (patterns isWord) seg) ∧ Aligned (patterns isWord) segs

theorem PartByPart.format_eq {template : List Char} {args : Arguments Obj}
    (h : PartByPart isWord py template args.values) :
    ∃ m, format py template args = some m ∧
      format py (maskText isWord template) (.tuple (args.values.map (maskValue isWord))) =
        some (maskText isWord m) := by
  obtain ⟨segs,rfl,htaken,hforms,halone,haligned⟩ := h
  obtain ⟨segs',halone',hraw,htext,htaken'⟩ := haligned.exists_masked halone
  refine ⟨_,format_segments hforms htaken.symm,?_⟩
  have hforms' : ∀ seg ∈ segs'.map (Segment.mapTaken (maskValue isWord)), seg.Forms py := by
    rw [List.forall_mem_map]
    intro seg hseg
    cases seg <;> exact halone' _ hseg
  have hvalues : (Arguments.tuple (args.values.map (maskValue isWord))).values =
      (segs'.map (Segment.mapTaken (maskValue isWord))).flatMap Segment.taken := by
    rw [Segment.flatMap_taken,htaken',htaken,Arguments.values]
  have hformat := format_segments hforms' hvalues
  rw [Segment.flatMap_raw,Segment.flatMap_text,hraw,htext] at hformat
  exact hformat

/-- The characters that the filter masks have the mask of the text that is shown. -/
def TemplateMasked (isWord : Char → Bool) (py : Conversions Obj) : Value Obj → Prop
  | .str _ => True
  | .subclass s o => maskText isWord s = maskText isWord (py.str (.subclass s o))
  | v => maskText isWord (py.str v) = py.str v

namespace LogRecord

variable (isWord) (py) (record : LogRecord Obj)

/-- A template is masked if it is a plain string, or of a subclass that is shown as its characters
up to the mask, or has nothing to mask. -/
structure HoldsWhen : Prop where
  template : TemplateMasked isWord py record.msg
  parts : record.args.truthy = true →
    PartByPart isWord py (py.asText record.msg) record.args.values

variable {isWord} {py} {record}

theorem templateMasked_iff {v : Value Obj} : TemplateMasked isWord py v ↔
    py.asText (maskValue isWord v) = maskText isWord (py.asText v) := by
  cases v with
  | str s => exact ⟨fun _ => rfl,fun _ => trivial⟩
  | subclass s o => exact .rfl
  | mapping entries => exact eq_comm
  | object o => exact eq_comm

theorem truthy_tuple (h : record.args.truthy = true) (f : Value Obj → Value Obj) :
    (Arguments.tuple (record.args.values.map f)).truthy = true := by
  cases hargs : record.args with
  | tuple vs => simpa [hargs,Arguments.truthy,Arguments.values] using h
  | mapping entries => rfl

theorem getMessage_filter (h : record.args.truthy = true) :
    (CredentialMaskingFilter.filter isWord record).2.getMessage py =
      format py (py.asText (maskValue isWord record.msg))
        (.tuple (record.args.values.map (maskValue isWord))) := by
  simp [CredentialMaskingFilter.filter,getMessage,h,truthy_tuple h]

theorem getMessage_filter_of_not (h : record.args.truthy = false) :
    (CredentialMaskingFilter.filter isWord record).2.getMessage py =
      some (py.asText (maskValue isWord record.msg)) := by
  simp [CredentialMaskingFilter.filter,getMessage,h]

theorem HoldsWhen.rightlyMasked (h : record.HoldsWhen isWord py) :
    record.RightlyMasked isWord py := by
  intro m hm
  cases htruthy : record.args.truthy with
  | false =>
    obtain rfl : py.asText record.msg = m := by simpa [getMessage,htruthy] using hm
    rw [getMessage_filter_of_not htruthy,templateMasked_iff.mp h.template]
  | true =>
    obtain ⟨m',hformat,hmasked⟩ := (h.parts htruthy).format_eq
    obtain rfl : m' = m := by simpa [getMessage,htruthy,hformat] using hm
    rw [getMessage_filter htruthy,templateMasked_iff.mp h.template,hmasked]

theorem HoldsWhen.of_no_args (htruthy : record.args.truthy = false)
    (h : record.RightlyMasked isWord py) : record.HoldsWhen isWord py := by
  refine ⟨?_,fun h' => by simp [htruthy] at h'⟩
  have hmessage := h (py.asText record.msg) (by simp [getMessage,htruthy])
  rw [getMessage_filter_of_not htruthy,Option.some.injEq] at hmessage
  exact templateMasked_iff.mpr hmessage

end LogRecord

/-- When the filter emits the masked message: always under the condition; only under it without
arguments; with arguments, only if the masked template still asks for as many of them as there are
and for none by a key; and where the filter finds nothing, only if the message has nothing. -/
theorem filter_rightlyMasked (isWord : Char → Bool) (py : Conversions Obj)
    (record : LogRecord Obj) :
    (record.HoldsWhen isWord py → record.RightlyMasked isWord py) ∧
    (record.args.truthy = false →
      (record.RightlyMasked isWord py ↔ record.HoldsWhen isWord py)) ∧
    ∀ m, record.getMessage py = some m →
      (record.args.truthy = true → record.RightlyMasked isWord py →
        asks (parse .text (py.asText (maskValue isWord record.msg))) =
          some record.args.values.length) ∧
      ((CredentialMaskingFilter.filter isWord record).2.msg = record.msg →
        (CredentialMaskingFilter.filter isWord record).2.args = record.args →
        (record.RightlyMasked isWord py ↔ maskText isWord m = m)) := by
  refine ⟨LogRecord.HoldsWhen.rightlyMasked,
    fun htruthy => ⟨.of_no_args htruthy,LogRecord.HoldsWhen.rightlyMasked⟩,fun m hm => ⟨?_,?_⟩⟩
  · intro htruthy h
    have hmessage := h m hm
    rw [LogRecord.getMessage_filter htruthy] at hmessage
    simpa using asks_of_format hmessage
  · intro hmsg hargs
    have hsame : (CredentialMaskingFilter.filter isWord record).2.getMessage py = some m := by
      rw [← hm,LogRecord.getMessage,LogRecord.getMessage,hmsg,hargs]
    constructor
    · intro h
      exact (Option.some.inj (hsame.symm.trans (h m hm))).symm
    · intro hmask m' hm'
      obtain rfl : m = m' := Option.some.inj (hm.symm.trans hm')
      rw [hsame,hmask]

/-- An interpreter whose objects are exceptions and the members of string enumerations, known by
what they are shown as. -/
def exceptions : Conversions (List Char) where
  str
    | .object o | .subclass _ o => o
    | _ => []
  finds _ _ := false
  toInt _ := none
  convert _ _ _ _ _ := none

def str (s : String) : Value (List Char) := .str s.toList

def logged (template : String) (args : Arguments (List Char)) : LogRecord (List Char) :=
  ⟨str template,args,[]⟩

/-- A literal text between two conversions, of a string and of an exception. -/
def between (u t : List Char) : List (Segment (List Char)) :=
  [.conversion "%s".toList "bob".toList [str "bob"],.literal u t,
    .conversion "%s".toList "prod".toList [.object "prod".toList]]

theorem between_alone {u t : List Char} (h : Escaped u t) :
    (∀ seg ∈ between u t, seg.Forms exceptions) ∧
      ∀ seg ∈ between u t, MasksAlone isAsciiWord exceptions (patterns isAsciiWord) seg := by
  have hprod : Segment.Gives exceptions "%s".toList "prod".toList [.object "prod".toList] :=
    Segment.gives_s exceptions (.object _)
  simp only [between,List.forall_mem_cons]
  exact ⟨⟨Segment.gives_s exceptions (str "bob"),h,hprod,fun _ h => absurd h List.not_mem_nil⟩,
    masksAlone_string _,h,masksAlone_of_masked hprod (by decide +kernel) rfl,
    fun _ h => absurd h List.not_mem_nil⟩

theorem between_segmentwise {us ts : List (Piece Char)} (h : EscapedScan us ts) :
    Segmentwise credential (between (Piece.source us) (Piece.source ts))
      ("%s".toList.map .kept++(us++"%s".toList.map .kept))
      ("bob".toList.map .kept++(ts++"prod".toList.map .kept))
      (between (Piece.shown MASK us) (Piece.shown MASK ts)) := by
  have hbob : credential.pieces "bob".toList = "bob".toList.map .kept := by decide +kernel
  have hprod : credential.pieces "prod".toList = "prod".toList.map .kept := by decide +kernel
  have hlast : Segmentwise credential [.conversion "%s".toList "prod".toList
      [.object "prod".toList]] _ _ _ := .conversion .nil
  have hseg : Segmentwise credential (between (Piece.source us) (Piece.source ts)) _ _ _ :=
    .conversion (.literal h hlast)
  simp only [Pattern.sub,hbob,hprod,Piece.shown_kept,List.append_nil] at hseg
  exact hseg

/-- A value in the template, between two conversions. -/
theorem filter_rightlyMasked_sample :
    (logged "%s: token=50%% of %s"
      (.tuple [str "bob",.object "prod".toList])).RightlyMasked isAsciiWord exceptions := by
  let us : List (Piece Char) :=
    ": token=".toList.map .kept++(.hidden "50%%".toList::" of ".toList.map .kept)
  let ts : List (Piece Char) :=
    ": token=".toList.map .kept++(.hidden "50%".toList::" of ".toList.map .kept)
  have hscan : EscapedScan us ts :=
    (EscapedScan.of_kept (.refl (by decide))).append (.hidden _ _ (.of_kept (.refl (by decide))))
  have hescaped : Escaped ": token=50%% of ".toList ": token=50% of ".toList :=
    (Escaped.refl (u := ": token=50".toList) (by decide)).append
      (.percent (.refl (by decide)))
  have hfirst : Segmentwise credential (between ": token=50%% of ".toList ": token=50% of ".toList)
      (credential.pieces "%s: token=50%% of %s".toList)
      (credential.pieces "bob: token=50% of prod".toList)
      (between ": token=*** of ".toList ": token=*** of ".toList) := by
    have hraw : credential.pieces "%s: token=50%% of %s".toList =
        "%s".toList.map .kept++(us++"%s".toList.map .kept) := by decide +kernel
    have htext : credential.pieces "bob: token=50% of prod".toList =
        "bob".toList.map .kept++(ts++"prod".toList.map .kept) := by decide +kernel
    rw [hraw,htext]
    exact between_segmentwise hscan
  have hlater : Aligned [urlCredential,authorization isAsciiWord,basic]
      (between ": token=*** of ".toList ": token=*** of ".toList) := by
    refine .of_untouched fun pat hpat => ?_
    have hkept : ∀ pat ∈ [urlCredential,authorization isAsciiWord,basic],
        (pat.pieces "bob".toList = "bob".toList.map .kept ∧
          pat.pieces "prod".toList = "prod".toList.map .kept) ∧
        pat.pieces "%s: token=*** of %s".toList = "%s: token=*** of %s".toList.map .kept ∧
        pat.pieces "bob: token=*** of prod".toList = "bob: token=*** of prod".toList.map .kept := by
      decide +kernel
    obtain ⟨⟨hbob,hprod⟩,hraw,htext⟩ := hkept pat hpat
    refine ⟨?_,hraw,htext⟩
    simp only [between,List.forall_mem_cons]
    exact ⟨hbob,.refl (by decide),hprod,fun _ h => absurd h List.not_mem_nil⟩
  obtain ⟨hforms,halone⟩ := between_alone hescaped
  exact (filter_rightlyMasked isAsciiWord exceptions _).1
    ⟨trivial,fun _ => ⟨_,rfl,rfl,hforms,halone,_,hfirst,hlater⟩⟩

/-- A conversion behind a key, a mapping, an exception, a header in two parts and a member of a
string enumeration. -/
theorem records_go_wrong :
    let message record := LogRecord.getMessage exceptions record
    let filtered record :=
      (CredentialMaskingFilter.filter isAsciiWord record).2.getMessage exceptions
    let assigned := logged "password=%s" (.tuple [str "hunter2"])
    let keyed := logged "login of %(user)s" (.mapping [(str "user",str "bob")])
    let failed := logged "failed: %s" (.tuple [.object "password=hunter2".toList])
    let split := logged "Authorization: %s" (.tuple [str "Bearer hunter2"])
    let member := logged "state %s" (.tuple [.subclass "red".toList "Color.RED".toList])
    (message assigned = some "password=hunter2".toList ∧ filtered assigned = none) ∧
    (message keyed = some "login of bob".toList ∧ filtered keyed = none) ∧
    (message failed = some "failed: password=hunter2".toList ∧
      filtered failed = some "failed: password=hunter2".toList) ∧
    (message split = some "Authorization: Bearer hunter2".toList ∧
      filtered split = some "Authorization: Bearer hunter2".toList) ∧
    (message member = some "state Color.RED".toList ∧
      filtered member = some "state red".toList) ∧
    ∀ record ∈ [assigned,keyed,failed,split,member],
      ¬ record.RightlyMasked isAsciiWord exceptions := by
  intro message filtered assigned keyed failed split member
  have hassigned : message assigned = some "password=hunter2".toList ∧
      filtered assigned = none := by decide +kernel
  have hkeyed : message keyed = some "login of bob".toList ∧ filtered keyed = none := by
    decide +kernel
  have hfailed : message failed = some "failed: password=hunter2".toList ∧
      filtered failed = some "failed: password=hunter2".toList := by decide +kernel
  have hsplit : message split = some "Authorization: Bearer hunter2".toList ∧
      filtered split = some "Authorization: Bearer hunter2".toList := by decide +kernel
  have hmember : message member = some "state Color.RED".toList ∧
      filtered member = some "state red".toList := by decide +kernel
  refine ⟨hassigned,hkeyed,hfailed,hsplit,hmember,?_⟩
  have hwrong : ∀ record m, message record = some m →
      filtered record ≠ some (maskText isAsciiWord m) →
      ¬ record.RightlyMasked isAsciiWord exceptions := fun record m hm hne h => hne (h m hm)
  simp only [List.forall_mem_cons]
  refine ⟨hwrong _ _ hassigned.1 ?_,hwrong _ _ hkeyed.1 ?_,hwrong _ _ hfailed.1 ?_,
    hwrong _ _ hsplit.1 ?_,hwrong _ _ hmember.1 ?_,fun _ h => absurd h List.not_mem_nil⟩
  · simp [hassigned.2]
  · simp [hkeyed.2]
  · rw [hfailed.2]
    decide +kernel
  · rw [hsplit.2]
    decide +kernel
  · rw [hmember.2]
    decide +kernel

end WzonePortal.Masking
