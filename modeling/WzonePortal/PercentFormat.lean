import Mathlib.Data.Int.Notation
import Mathlib.Data.List.Basic
import Mathlib.Tactic.Common

/-! The `%` formatting of strings in Python. The template is read character by character into
directives, and these take the arguments one after the other, or by their keys. -/
namespace PercentFormat

/-- A width or a precision: a number, or the next argument. -/
inductive Size
  | number (n : ℕ)
  | star
  deriving DecidableEq

structure Spec where
  key : Option (List Char)
  flags : List Char
  width : Option Size
  precision : Option Size
  deriving DecidableEq

def Spec.empty : Spec := ⟨none,[],none,none⟩

inductive Directive
  | literal (c : Char)
  | conversion (spec : Spec) (c : Char)
  | malformed
  deriving DecidableEq

/-- What has been read of a conversion. -/
inductive State
  | text
  | percent
  | key (depth : ℕ) (read : List Char)
  | flags (spec : Spec)
  | width (spec : Spec) (n : ℕ)
  | dot (spec : Spec)
  | precision (spec : Spec)
  | digits (spec : Spec) (n : ℕ)
  | modifier (spec : Spec)
  | conversion (spec : Spec)
  deriving DecidableEq

def digit (c : Char) : ℕ := c.toNat- '0'.toNat

def readModifier (spec : Spec) (c : Char) : State × List Directive :=
  if c = 'h' ∨ c = 'l' ∨ c = 'L' then (.conversion spec,[]) else (.text,[.conversion spec c])

def readDot (spec : Spec) (c : Char) : State × List Directive :=
  if c = '.' then (.precision { spec with precision := some (.number 0) },[])
  else readModifier spec c

def readWidth (spec : Spec) (c : Char) : State × List Directive :=
  if c = '*' then (.dot { spec with width := some .star },[])
  else if c.isDigit then (.width spec (digit c),[])
  else readDot spec c

def readFlags (spec : Spec) (c : Char) : State × List Directive :=
  if c = '-' ∨ c = '+' ∨ c = ' ' ∨ c = '#' ∨ c = '0' then
    (.flags { spec with flags := spec.flags++[c] },[])
  else readWidth spec c

/-- One character of the template; a key ends with the bracket that closes its first. -/
def step : State → Char → State × List Directive
  | .text, c => if c = '%' then (.percent,[]) else (.text,[.literal c])
  | .percent, c => if c = '(' then (.key 1 [],[]) else readFlags .empty c
  | .key depth read, c =>
    if c = ')' then
      if depth = 1 then (.flags { Spec.empty with key := some read },[])
      else (.key (depth-1) (read++[c]),[])
    else (.key (if c = '(' then depth+1 else depth) (read++[c]),[])
  | .flags spec, c => readFlags spec c
  | .width spec n, c =>
    if c.isDigit then (.width spec (10*n+digit c),[])
    else readDot { spec with width := some (.number n) } c
  | .dot spec, c => readDot spec c
  | .precision spec, c =>
    if c = '*' then (.modifier { spec with precision := some .star },[])
    else if c.isDigit then (.digits spec (digit c),[])
    else readModifier spec c
  | .digits spec n, c =>
    if c.isDigit then (.digits spec (10*n+digit c),[])
    else readModifier { spec with precision := some (.number n) } c
  | .modifier spec, c => readModifier spec c
  | .conversion spec, c => (.text,[.conversion spec c])

/-- The directives of a template from a state on; a conversion that the end cuts is malformed. -/
def parse : State → List Char → List Directive
  | .text, [] => []
  | _, [] => [.malformed]
  | st, c::t => (step st c).2++parse (step st c).1 t

def advance : State → List Char → State × List Directive
  | st, [] => (st,[])
  | st, c::t =>
    let later := advance (step st c).1 t
    (later.1,(step st c).2++later.2)

theorem parse_cons (st : State) (c : Char) (t : List Char) :
    parse st (c::t) = (step st c).2++parse (step st c).1 t := by
  cases st <;> rfl

theorem parse_append (st : State) (u t : List Char) :
    parse st (u++t) = (advance st u).2++parse (advance st u).1 t := by
  induction u generalizing st with
  | nil => rfl
  | cons c u ih => simp only [List.cons_append,parse_cons,advance,ih,List.append_assoc]

/-- A text that gives whole directives. -/
def Whole (u : List Char) (ds : List Directive) : Prop := advance .text u = (.text,ds)

theorem Whole.parse {u : List Char} {ds : List Directive} (h : Whole u ds) (t : List Char) :
    parse .text (u++t) = ds++parse .text t := by
  rw [parse_append,h]

/-- A value of a subclass of `str` has its characters, and an object that says how it is shown. -/
inductive Value (Obj : Type)
  | str (s : List Char)
  | subclass (s : List Char) (o : Obj)
  | mapping (entries : List (Value Obj × Value Obj))
  | object (o : Obj)

variable {Obj : Type}

/-- The conversions of the interpreter: `str` of what is no plain string, the keys of a mapping that
are none and are found under a text, the whole number behind `*`, and the conversions other than
`%s`. -/
structure Conversions (Obj : Type) where
  str : Value Obj → List Char
  finds : List Char → Value Obj → Bool
  toInt : Value Obj → Option ℤ
  convert : List Char → Option ℤ → Option ℕ → Char → Value Obj → Option (List Char)

namespace Conversions

variable (py : Conversions Obj)

def asText : Value Obj → List Char
  | .str s => s
  | v => py.str v

def pad (flags : List Char) (width : ℤ) (s : List Char) : List Char :=
  let blanks := List.replicate (width.natAbs-s.length) ' '
  if '-' ∈ flags ∨ width < 0 then s++blanks else blanks++s

def text (flags : List Char) (width : Option ℤ) (precision : Option ℕ) (c : Char)
    (v : Value Obj) : Option (List Char) :=
  if c = 's' then
    let cut := precision.elim (py.asText v) (py.asText v).take
    some (width.elim cut fun n => pad flags n cut)
  else py.convert flags width precision c v

end Conversions

inductive Arguments (Obj : Type)
  | tuple (vs : List (Value Obj))
  | mapping (entries : List (Value Obj × Value Obj))

namespace Arguments

def truthy : Arguments Obj → Bool
  | tuple vs => !vs.isEmpty
  | mapping entries => !entries.isEmpty

def entries? : Arguments Obj → Option (List (Value Obj × Value Obj))
  | tuple _ => none
  | mapping entries => some entries

/-- The arguments one after the other; what is no tuple is the only one. -/
def values : Arguments Obj → List (Value Obj)
  | tuple vs => vs
  | mapping entries => [.mapping entries]

end Arguments

def isKey (py : Conversions Obj) (key : List Char) (entry : Value Obj × Value Obj) : Bool :=
  match entry.1 with
  | .str s => s == key
  | v => py.finds key v

def next : List (Value Obj) → Option (Value Obj × List (Value Obj))
  | [] => none
  | v::vs => some (v,vs)

/-- A key replaces the arguments by its value. -/
def select (py : Conversions Obj) (entries? : Option (List (Value Obj × Value Obj)))
    (key : Option (List Char)) (vs : List (Value Obj)) : Option (List (Value Obj)) :=
  match key with
  | none => some vs
  | some key => do
    let entry ← (← entries?).find? (isKey py key)
    some [entry.2]

def size (py : Conversions Obj) (n : Option Size) (vs : List (Value Obj)) :
    Option (Option ℤ × List (Value Obj)) :=
  match n with
  | none => some (none,vs)
  | some (.number n) => some (some n,vs)
  | some .star => do
    let (v,vs) ← next vs
    let n ← py.toInt v
    some (some n,vs)

/-- One directive: its text and the arguments that it leaves. -/
def Directive.perform (py : Conversions Obj) (entries? : Option (List (Value Obj × Value Obj)))
    (d : Directive) (vs : List (Value Obj)) : Option (List Char × List (Value Obj)) :=
  match d with
  | .literal c => some ([c],vs)
  | .malformed => none
  | .conversion spec c => do
    let vs ← select py entries? spec.key vs
    let (width,vs) ← size py spec.width vs
    let (precision,vs) ← size py spec.precision vs
    if c = '%' then some (['%'],vs) else
      let (v,vs) ← next vs
      let text ← py.text spec.flags width (precision.map Int.toNat) c v
      some (text,vs)

def run (py : Conversions Obj) (entries? : Option (List (Value Obj × Value Obj))) :
    List Directive → List (Value Obj) → Option (List Char × List (Value Obj))
  | [], vs => some ([],vs)
  | d::ds, vs => do
    let (text,vs) ← d.perform py entries? vs
    let (later,vs) ← run py entries? ds vs
    some (text++later,vs)

/-- `template % args`; the values of a tuple have all to be taken. -/
def format (py : Conversions Obj) (template : List Char) (args : Arguments Obj) :
    Option (List Char) := do
  let (text,left) ← run py args.entries? (parse .text template) args.values
  if args.entries?.isNone ∧ left ≠ [] then none else some text

variable {py : Conversions Obj} {entries? : Option (List (Value Obj × Value Obj))}

theorem next_append {vs left rest : List (Value Obj)} {v : Value Obj}
    (h : next vs = some (v,left)) : next (vs++rest) = some (v,left++rest) := by
  cases vs with
  | nil => simp [next] at h
  | cons w vs =>
    obtain ⟨rfl,rfl⟩ : w = v ∧ vs = left := by simpa [next] using h
    rfl

theorem size_append {n : Option Size} {k : Option ℤ} {vs left rest : List (Value Obj)}
    (h : size py n vs = some (k,left)) : size py n (vs++rest) = some (k,left++rest) := by
  match n with
  | none =>
    obtain ⟨rfl,rfl⟩ : none = k ∧ vs = left := by simpa [size] using h
    rfl
  | some (.number n) =>
    obtain ⟨rfl,rfl⟩ : some (n : ℤ) = k ∧ vs = left := by simpa [size] using h
    rfl
  | some .star =>
    obtain ⟨v,left',hnext,i,hi,rfl,rfl⟩ : ∃ v left', next vs = some (v,left') ∧
        ∃ i, py.toInt v = some i ∧ some i = k ∧ left' = left := by
      simpa [size,Option.bind_eq_some_iff] using h
    simp [size,next_append hnext,hi]

theorem perform_append {spec : Spec} {c : Char} {text : List Char} {vs left : List (Value Obj)}
    (hkey : spec.key = none)
    (h : (Directive.conversion spec c).perform py none vs = some (text,left))
    (rest : List (Value Obj)) :
    (Directive.conversion spec c).perform py entries? (vs++rest) = some (text,left++rest) := by
  simp only [Directive.perform,hkey,select,Option.bind_eq_bind,Option.bind_some,
    Option.bind_eq_some_iff,Prod.exists] at h
  obtain ⟨width,vs₁,h₁,precision,vs₂,h₂,h₃⟩ := h
  simp only [Directive.perform,hkey,select,Option.bind_eq_bind,Option.bind_some,size_append h₁,
    size_append h₂]
  by_cases hc : c = '%'
  · obtain ⟨rfl,rfl⟩ : ['%'] = text ∧ vs₂ = left := by simpa [hc] using h₃
    simp [hc]
  · simp only [hc,if_false,Option.bind_eq_some_iff,Prod.exists] at h₃ ⊢
    obtain ⟨v,vs₃,hnext,s,hs,hsome⟩ := h₃
    obtain ⟨rfl,rfl⟩ : s = text ∧ vs₃ = left := by simpa using hsome
    exact ⟨v,vs₃++rest,next_append hnext,s,hs,rfl⟩

theorem run_append {ds es : List Directive} {vs vs' left : List (Value Obj)} {t t' : List Char}
    (hds : run py entries? ds vs = some (t,vs')) (hes : run py entries? es vs' = some (t',left)) :
    run py entries? (ds++es) vs = some (t++t',left) := by
  induction ds generalizing t vs with
  | nil =>
    obtain ⟨rfl,rfl⟩ : [] = t ∧ vs = vs' := by simpa [run] using hds
    exact hes
  | cons d ds ih =>
    simp only [run,Option.bind_eq_bind,Option.bind_eq_some_iff,Prod.exists] at hds
    obtain ⟨s,vs₁,hd,s',vs₂,hrun,hsome⟩ := hds
    obtain ⟨rfl,rfl⟩ : s++s' = t ∧ vs₂ = vs' := by simpa using hsome
    simp [run,hd,ih hrun]

/-- A literal text of a template and what it stands for. -/
inductive Escaped : List Char → List Char → Prop
  | nil : Escaped [] []
  | char {c : Char} {u t : List Char} (h : c ≠ '%') : Escaped u t → Escaped (c::u) (c::t)
  | percent {u t : List Char} : Escaped u t → Escaped ('%':: '%'::u) ('%'::t)

theorem Escaped.refl {u : List Char} (h : '%' ∉ u) : Escaped u u := by
  induction u with
  | nil => exact .nil
  | cons c u ih =>
    simp only [List.mem_cons,not_or] at h
    exact .char (Ne.symm h.1) (ih h.2)

theorem Escaped.append {u t v s : List Char} (h : Escaped u t) (h' : Escaped v s) :
    Escaped (u++v) (t++s) := by
  induction h with
  | nil => exact h'
  | char hc _ ih => exact .char hc ih
  | percent _ ih => exact .percent ih

theorem Escaped.run {u t : List Char} (h : Escaped u t) {v s : List Char}
    {vs left : List (Value Obj)}
    (hrun : PercentFormat.run py entries? (parse .text v) vs = some (s,left)) :
    PercentFormat.run py entries? (parse .text (u++v)) vs = some (t++s,left) := by
  induction h with
  | nil => exact hrun
  | @char c u t hc _ ih =>
    have hparse : parse .text (c::(u++v)) = .literal c::parse .text (u++v) := by
      simp [parse,step,hc]
    simp [hparse,PercentFormat.run,Directive.perform,ih]
  | @percent u t _ ih =>
    have hparse : parse .text ('%':: '%'::(u++v)) =
        .conversion .empty '%'::parse .text (u++v) := by
      simp [parse,step,readFlags,readWidth,readDot,readModifier]
    simp [hparse,PercentFormat.run,Directive.perform,Spec.empty,select,size,ih]

/-- A part of a template: its text, what stands for it in the message, and the arguments that it
takes. -/
inductive Segment (Obj : Type)
  | literal (raw text : List Char)
  | conversion (raw text : List Char) (taken : List (Value Obj))

namespace Segment

def raw : Segment Obj → List Char
  | literal raw _ => raw
  | conversion raw _ _ => raw

def text : Segment Obj → List Char
  | literal _ text => text
  | conversion _ text _ => text

def taken : Segment Obj → List (Value Obj)
  | literal _ _ => []
  | conversion _ _ taken => taken

/-- A conversion without a key that gives its text with its arguments. -/
def Gives (py : Conversions Obj) (raw text : List Char) (taken : List (Value Obj)) : Prop :=
  ∃ spec c, Whole raw [.conversion spec c] ∧ spec.key = none ∧
    (Directive.conversion spec c).perform py none taken = some (text,[])

theorem gives_s (py : Conversions Obj) (v : Value Obj) : Gives py "%s".toList (py.asText v) [v] :=
  ⟨.empty,'s',rfl,rfl,by simp [Directive.perform,Spec.empty,select,size,next,Conversions.text]⟩

def Forms (py : Conversions Obj) : Segment Obj → Prop
  | literal raw text => Escaped raw text
  | conversion raw text taken => Gives py raw text taken

def mapTaken (f : Value Obj → Value Obj) : Segment Obj → Segment Obj
  | literal raw text => literal raw text
  | conversion raw text taken => conversion raw text (taken.map f)

variable (f : Value Obj → Value Obj) (segs : List (Segment Obj))

theorem flatMap_raw : (segs.map (mapTaken f)).flatMap raw = segs.flatMap raw := by
  rw [List.flatMap_map]
  exact congrArg (segs.flatMap ·) (funext fun seg => by cases seg <;> rfl)

theorem flatMap_text : (segs.map (mapTaken f)).flatMap text = segs.flatMap text := by
  rw [List.flatMap_map]
  exact congrArg (segs.flatMap ·) (funext fun seg => by cases seg <;> rfl)

theorem flatMap_taken :
    (segs.map (mapTaken f)).flatMap taken = (segs.flatMap taken).map f := by
  rw [List.flatMap_map,List.map_flatMap]
  exact congrArg (segs.flatMap ·) (funext fun seg => by cases seg <;> rfl)

end Segment

theorem run_segments {segs : List (Segment Obj)} (h : ∀ seg ∈ segs, seg.Forms py) :
    run py entries? (parse .text (segs.flatMap Segment.raw)) (segs.flatMap Segment.taken) =
      some (segs.flatMap Segment.text,[]) := by
  induction segs with
  | nil => rfl
  | cons seg segs ih =>
    have hlater := ih fun seg hseg => h seg (List.mem_cons_of_mem _ hseg)
    have hseg := h seg List.mem_cons_self
    simp only [List.flatMap_cons]
    cases seg with
    | literal raw text => exact Escaped.run hseg hlater
    | conversion raw text taken =>
      obtain ⟨spec,c,hwhole,hkey,hperform⟩ := hseg
      have hfirst : (Directive.conversion spec c).perform py entries?
          (taken++segs.flatMap Segment.taken) = some (text,[]++segs.flatMap Segment.taken) :=
        perform_append hkey hperform _
      simp only [Segment.raw,Segment.taken,Segment.text]
      rw [hwhole.parse]
      exact run_append (by simp [run,hfirst]) hlater

theorem format_segments {segs : List (Segment Obj)} {args : Arguments Obj}
    (h : ∀ seg ∈ segs, seg.Forms py) (hargs : args.values = segs.flatMap Segment.taken) :
    format py (segs.flatMap Segment.raw) args = some (segs.flatMap Segment.text) := by
  simp [format,hargs,run_segments h]

def Size.asks : Option Size → ℕ
  | some .star => 1
  | _ => 0

/-- The number of arguments that a directive takes, if it takes them without a key. -/
def Directive.asks : Directive → Option ℕ
  | .literal _ => some 0
  | .malformed => none
  | .conversion spec c =>
    if spec.key.isSome then none
    else some (Size.asks spec.width+Size.asks spec.precision+if c = '%' then 0 else 1)

def asks : List Directive → Option ℕ
  | [] => some 0
  | d::ds => do
    let n ← d.asks
    let k ← asks ds
    some (n+k)

theorem length_of_next {vs left : List (Value Obj)} {v : Value Obj} (h : next vs = some (v,left)) :
    vs.length = 1+left.length := by
  cases vs with
  | nil => simp [next] at h
  | cons w vs =>
    obtain ⟨rfl,rfl⟩ : w = v ∧ vs = left := by simpa [next] using h
    simp [Nat.add_comm]

theorem length_of_size {n : Option Size} {k : Option ℤ} {vs left : List (Value Obj)}
    (h : size py n vs = some (k,left)) : vs.length = Size.asks n+left.length := by
  match n with
  | none =>
    obtain ⟨-,rfl⟩ : none = k ∧ vs = left := by simpa [size] using h
    simp [Size.asks]
  | some (.number n) =>
    obtain ⟨-,rfl⟩ : some (n : ℤ) = k ∧ vs = left := by simpa [size] using h
    simp [Size.asks]
  | some .star =>
    obtain ⟨v,left',hnext,i,-,-,rfl⟩ : ∃ v left', next vs = some (v,left') ∧
        ∃ i, py.toInt v = some i ∧ some i = k ∧ left' = left := by
      simpa [size,Option.bind_eq_some_iff] using h
    exact length_of_next hnext

theorem length_of_perform {d : Directive} {text : List Char} {vs left : List (Value Obj)}
    (h : d.perform py none vs = some (text,left)) :
    ∃ n, d.asks = some n ∧ vs.length = n+left.length := by
  cases d with
  | literal c =>
    obtain ⟨-,rfl⟩ : [c] = text ∧ vs = left := by simpa [Directive.perform] using h
    exact ⟨0,rfl,by simp⟩
  | malformed => simp [Directive.perform] at h
  | conversion spec c =>
    simp only [Directive.perform,Option.bind_eq_bind,Option.bind_eq_some_iff,Prod.exists] at h
    obtain ⟨vs₀,h₀,width,vs₁,h₁,precision,vs₂,h₂,h₃⟩ := h
    have hkey : spec.key = none := by
      cases hkey : spec.key with
      | none => rfl
      | some key => simp [select,hkey] at h₀
    obtain rfl : vs = vs₀ := by simpa [select,hkey] using h₀
    have hwidth := length_of_size h₁
    have hprecision := length_of_size h₂
    refine ⟨_,by simp only [Directive.asks,hkey]; rfl,?_⟩
    by_cases hc : c = '%'
    · obtain ⟨-,rfl⟩ : ['%'] = text ∧ vs₂ = left := by simpa [hc] using h₃
      simp only [hc,if_true]
      omega
    · simp only [hc,if_false,Option.bind_eq_some_iff,Prod.exists] at h₃ ⊢
      obtain ⟨v,vs₃,hnext,s,-,hsome⟩ := h₃
      obtain ⟨-,rfl⟩ : s = text ∧ vs₃ = left := by simpa using hsome
      have hlength := length_of_next hnext
      omega

theorem length_of_run {ds : List Directive} {text : List Char} {vs left : List (Value Obj)}
    (h : run py none ds vs = some (text,left)) :
    ∃ n, asks ds = some n ∧ vs.length = n+left.length := by
  induction ds generalizing text vs with
  | nil =>
    obtain ⟨-,rfl⟩ : [] = text ∧ vs = left := by simpa [run] using h
    exact ⟨0,rfl,by simp⟩
  | cons d ds ih =>
    simp only [run,Option.bind_eq_bind,Option.bind_eq_some_iff,Prod.exists] at h
    obtain ⟨s,vs₁,hd,s',vs₂,hrun,hsome⟩ := h
    obtain ⟨-,rfl⟩ : s++s' = text ∧ vs₂ = left := by simpa using hsome
    obtain ⟨n,hn,hfirst⟩ := length_of_perform hd
    obtain ⟨k,hk,hlater⟩ := ih hrun
    exact ⟨n+k,by simp [asks,hn,hk],by omega⟩

theorem asks_of_format {template m : List Char} {vs : List (Value Obj)}
    (h : format py template (.tuple vs) = some m) :
    asks (parse .text template) = some vs.length := by
  simp only [format,Arguments.entries?,Arguments.values,Option.bind_eq_bind,
    Option.bind_eq_some_iff,Prod.exists] at h
  obtain ⟨text,left,hrun,hleft⟩ := h
  obtain ⟨n,hn,hlength⟩ := length_of_run hrun
  have hnil : left = [] := by
    by_contra hne
    simp [hne] at hleft
  rw [hn,hlength,hnil,List.length_nil,Nat.add_zero]

end PercentFormat
