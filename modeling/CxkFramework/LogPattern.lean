import CxkFramework.LogConfig
import Mathlib.Algebra.Ring.Int.Defs
import Mathlib.Data.List.TakeWhile

/-!
# The format patterns of the logger

The items that `LogFormat` makes of a pattern and what they write for an event, against the grammar
in its comment: literal text, `%%`, a directive `%k`, and a directive with a format `%k{fmt}`.
-/

namespace CxkFramework

def LogLevel.ToString : LogLevel → String
  | DEBUG => "DEBUG"
  | INFO => "INFO"
  | WARN => "WARN"
  | ERROR => "ERROR"
  | FATAL => "FATAL"
  | _ => "UNKNOWN"

/-- What an item reads of an event. -/
structure LogEvent where
  file : List Char
  line : Int
  threadID : Nat
  fiberID : Nat
  elapse : Nat
  time : Nat
  threadName : List Char
  content : List Char
  /-- the name of `m_logger` -/
  loggerName : List Char

namespace LogFormat

/-- `strftime` on the local time of a time. It copies what is no conversion; the default format of
`TimeFormatItem` gives digits and the characters between them. -/
structure TimeApi where
  strftime : List Char → Nat → List Char
  copies : ∀ fmt time, '%' ∉ fmt → strftime fmt time = fmt
  date : ∀ time, ∀ c ∈ strftime "%Y-%m-%d %H:%M:%S".toList time, c.isDigit ∨ c ∈ ['-', ':', ' ']

/-! ## Items -/

/-- The classes under `FormatItem`. -/
inductive FormatItem where
  | message
  | level
  | elapse
  | name
  | threadID
  | newLine
  | time (format : List Char)
  | fileName
  | line
  | tab
  | fiberID
  | string (s : List Char)
  | threadName
  deriving DecidableEq, Repr

/-- `s_format_items`. -/
def formatItems (str fmt : List Char) : Option FormatItem :=
  match str with
  | ['m'] => some .message
  | ['p'] => some .level
  | ['r'] => some .elapse
  | ['c'] => some .name
  | ['t'] => some .threadID
  | ['n'] => some .newLine
  | ['d'] => some (.time (if fmt = [] then "%Y-%m-%d %H:%M:%S".toList else fmt))
  | ['f'] => some .fileName
  | ['l'] => some .line
  | ['T'] => some .tab
  | ['F'] => some .fiberID
  | ['S'] => some (.string fmt)
  | ['N'] => some .threadName
  | _ => none

/-- What the last loop of `init` makes of an entry of `vec`. -/
def Part.toItem : Part → FormatItem
  | .text nstr => .string nstr
  | .item str fmt =>
    (formatItems str fmt).getD (.string ("<<error_format %".toList ++ str ++ ">>".toList))

/-- `m_items`. -/
def items (pattern : String) : List FormatItem := (init pattern).1.map Part.toItem

section Format

variable (api : TimeApi) (level : LogLevel) (event : LogEvent) (buf : List Char)

/-- `FormatItem::format`. The array of a `TimeFormatItem` has 64 characters; what does not fit
leaves in it what was there, `buf`. -/
def FormatItem.format : FormatItem → List Char
  | .message => event.content
  | .level => level.ToString.toList
  | .elapse => (toString event.elapse).toList
  | .name => event.loggerName
  | .threadID => (toString event.threadID).toList
  | .newLine => ['\n']
  | .time format =>
    let s := api.strftime (format.takeWhile (· != '\x00')) event.time
    if s.length < 64 then s else buf
  | .fileName => event.file
  | .line => (toString event.line).toList
  | .tab => ['\t']
  | .fiberID => (toString event.fiberID).toList
  | .string s => s
  | .threadName => event.threadName

/-- `LogFormat::format`. -/
def format (pattern : String) : List Char :=
  (items pattern).flatMap (FormatItem.format api level event buf)

end Format

/-! ## The grammar -/

inductive Element where
  | text (s : List Char)
  /-- `%%` -/
  | percent
  /-- `%k` -/
  | directive (k : Char)
  /-- `%k{fmt}` -/
  | formatted (k : Char) (fmt : List Char)
  deriving DecidableEq, Repr

namespace Element

def chars : Element → List Char
  | text s => s
  | percent => ['%', '%']
  | directive k => ['%', k]
  | formatted k fmt => '%' :: k :: '{' :: fmt ++ ['}']

def meaning (api : TimeApi) (level : LogLevel) (event : LogEvent) (buf : List Char) :
    Element → List Char
  | text s => s
  | percent => ['%']
  | directive k => ((formatItems [k] []).map (FormatItem.format api level event buf)).getD []
  | formatted k fmt => ((formatItems [k] fmt).map (FormatItem.format api level event buf)).getD []

/-- Literal text has no `%`, letters are supported and formats have no braces. -/
def Valid : Element → Prop
  | text s => '%' ∉ s
  | percent => True
  | directive k => [k] ∈ names
  | formatted k fmt => [k] ∈ names ∧ '{' ∉ fmt ∧ '}' ∉ fmt

/-- A letter or a brace, which goes on a directive. -/
def continues (c : Char) : Bool := c.isAlpha || c == '{' || c == '}'

/-- The element may stand before this text. -/
def Before (s : List Char) : Element → Prop
  | directive _ => ∀ c ∈ s.head?, continues c = false
  | _ => True

instance : DecidablePred Valid
  | text s => inferInstanceAs (Decidable ('%' ∉ s))
  | percent => inferInstanceAs (Decidable True)
  | directive k => inferInstanceAs (Decidable ([k] ∈ names))
  | formatted k fmt => inferInstanceAs (Decidable ([k] ∈ names ∧ '{' ∉ fmt ∧ '}' ∉ fmt))

instance (s : List Char) : DecidablePred (Before s)
  | directive _ =>
    decidable_of_iff (s.head?.all (!continues ·) = true) (by simp [Before, Option.all_eq_true])
  | text _ | percent | formatted _ _ => inferInstanceAs (Decidable True)

/-- The kinds of elements that `init` takes as the grammar has them. -/
def taken : Element → Bool
  | text _ => true
  | percent => false
  | directive _ => true
  | formatted _ _ => false

end Element

def text (es : List Element) : List Char := es.flatMap Element.chars

/-- The elements of a pattern. -/
def Valid : List Element → Prop
  | [] => True
  | e :: es => e.Valid ∧ e.Before (text es) ∧ Valid es

instance decidableValid : DecidablePred Valid
  | [] => inferInstanceAs (Decidable True)
  | e :: es =>
    have := decidableValid es
    inferInstanceAs (Decidable (e.Valid ∧ e.Before (text es) ∧ Valid es))

/-- What the elements mean for an event. -/
def meaning (api : TimeApi) (level : LogLevel) (event : LogEvent) (buf : List Char)
    (es : List Element) : List Char :=
  es.flatMap (Element.meaning api level event buf)

/-- How many elements are of the other kinds. -/
def astray (es : List Element) : Nat := es.countP fun e => !e.taken

/-! ## Reading a pattern -/

/-- Nothing that `isError` tells. -/
def Clean (r : List Part × Bool) : Prop :=
  r.2 = false ∧ ∀ str fmt, Part.item str fmt ∈ r.1 → str ∈ names

theorem isError_iff (pattern : String) : isError pattern = false ↔ Clean (init pattern) := by
  rw [isError, Bool.or_eq_false_iff, List.any_eq_false, Clean]
  constructor
  · rintro ⟨hflag, hparts⟩
    constructor
    · exact hflag
    · intro str fmt hmem
      have hname := hparts _ hmem
      simpa using hname
  · rintro ⟨hflag, hparts⟩
    constructor
    · exact hflag
    · intro part hmem
      cases part with
      | text nstr => simp
      | item str fmt =>
        have hname := hparts str fmt hmem
        simpa using hname

theorem formatItems_named {str : List Char} (h : str ∈ names) (fmt : List Char) :
    ∃ i, formatItems str fmt = some i := by
  simp only [names, List.mem_cons, List.not_mem_nil, or_false] at h
  rcases h with rfl | rfl | rfl | rfl | rfl | rfl | rfl | rfl | rfl | rfl | rfl | rfl | rfl <;>
    exact ⟨_, rfl⟩

/-- Supported names are one letter. -/
theorem letter_of_named {str : List Char} (h : str ∈ names) :
    ∃ k, str = [k] ∧ k.isAlpha = true ∧ k ≠ '%' ∧ k ≠ '{' ∧ k ≠ '}' := by
  simp only [names, List.mem_cons, List.not_mem_nil, or_false] at h
  rcases h with rfl | rfl | rfl | rfl | rfl | rfl | rfl | rfl | rfl | rfl | rfl | rfl | rfl <;>
    exact ⟨_, rfl, by decide, by decide, by decide, by decide⟩

@[simp] theorem text_nil : text [] = [] := rfl

@[simp] theorem text_cons (e : Element) (es : List Element) :
    text (e :: es) = e.chars ++ text es := rfl

@[simp] theorem meaning_nil (api : TimeApi) (level : LogLevel) (event : LogEvent)
    (buf : List Char) : meaning api level event buf [] = [] := rfl

@[simp] theorem meaning_cons (api : TimeApi) (level : LogLevel) (event : LogEvent)
    (buf : List Char) (e : Element) (es : List Element) :
    meaning api level event buf (e :: es) =
      e.meaning api level event buf ++ meaning api level event buf es := rfl

@[simp] theorem astray_nil : astray [] = 0 := rfl

@[simp] theorem astray_cons (e : Element) (es : List Element) :
    astray (e :: es) = astray es + if e.taken then 0 else 1 := by
  cases e <;> simp [astray, Element.taken]

/-- The same pattern with its literal text cut in another way. -/
structure Same (es es' : List Element) : Prop where
  text : text es = text es'
  meaning : ∀ api level event buf,
    meaning api level event buf es = meaning api level event buf es'
  astray : astray es = astray es'
  valid : Valid es → Valid es'

namespace Same

variable {es es' es'' : List Element}

theorem refl (es : List Element) : Same es es := ⟨rfl, fun _ _ _ _ => rfl, rfl, id⟩

theorem trans (h : Same es es') (h' : Same es' es'') : Same es es'' :=
  ⟨h.text.trans h'.text, fun api level event buf =>
    (h.meaning api level event buf).trans (h'.meaning api level event buf),
    h.astray.trans h'.astray, fun hvalid => h'.valid (h.valid hvalid)⟩

theorem cons (e : Element) (h : Same es es') : Same (e :: es) (e :: es') where
  text := by simp [h.text]
  meaning := by simp [h.meaning]
  astray := by simp [h.astray]
  valid := fun ⟨he, hbefore, hes⟩ => ⟨he, h.text ▸ hbefore, h.valid hes⟩

/-- Empty text is nothing. -/
theorem nothing (es : List Element) : Same (.text [] :: es) es where
  text := rfl
  meaning := by simp [Element.meaning]
  astray := by simp [Element.taken]
  valid := fun ⟨_, _, hes⟩ => hes

theorem cut (s s' : List Char) (es : List Element) :
    Same (.text (s ++ s') :: es) (.text s :: .text s' :: es) where
  text := by simp [Element.chars]
  meaning := by simp [Element.meaning]
  astray := by simp [Element.taken]
  valid := by
    rintro ⟨hs, -, hes⟩
    simp only [Element.Valid, List.mem_append, not_or] at hs
    exact ⟨hs.1, trivial, hs.2, trivial, hes⟩

theorem symm_cut (s s' : List Char) (es : List Element) :
    Same (.text s :: .text s' :: es) (.text (s ++ s') :: es) where
  text := by simp [Element.chars]
  meaning := by simp [Element.meaning]
  astray := by simp [Element.taken]
  valid := by
    rintro ⟨hs, -, hs', -, hes⟩
    constructor
    · simp only [Element.Valid, List.mem_append, not_or]
      exact ⟨hs, hs'⟩
    · exact ⟨trivial, hes⟩

end Same

/-- A pattern begins with an element that has characters; text begins with one. -/
theorem heads (es : List Element) :
    Same es [] ∨ ∃ e es', Same es (e :: es') ∧ ((∃ c, e = .text [c]) ∨ e = .percent ∨
      (∃ k, e = .directive k) ∨ ∃ k fmt, e = .formatted k fmt) := by
  induction es with
  | nil => exact .inl (.refl [])
  | cons e es ih =>
    cases e with
    | text s =>
      cases s with
      | nil =>
        obtain h | ⟨e, es', h, he⟩ := ih
        · exact .inl ((Same.nothing es).trans h)
        · exact .inr ⟨e, es', (Same.nothing es).trans h, he⟩
      | cons c s => exact .inr ⟨.text [c], .text s :: es, .cut [c] s es, .inl ⟨c, rfl⟩⟩
    | percent => exact .inr ⟨.percent, es, .refl _, .inr (.inl rfl)⟩
    | directive k => exact .inr ⟨.directive k, es, .refl _, .inr (.inr (.inl ⟨k, rfl⟩))⟩
    | formatted k fmt =>
      exact .inr ⟨.formatted k fmt, es, .refl _, .inr (.inr (.inr ⟨k, fmt, rfl⟩))⟩

/-- Characters without a percent sign are literal text. -/
theorem split_text {pre rest : List Char} (hpre : '%' ∉ pre) (es : List Element)
    (h : text es = pre ++ rest) : ∃ es', text es' = rest ∧ Same es (.text pre :: es') := by
  induction pre generalizing es with
  | nil => exact ⟨es, h, rfl, by simp [Element.meaning], by simp [Element.taken],
      fun hvalid => ⟨by simp [Element.Valid], trivial, hvalid⟩⟩
  | cons c pre ih =>
    simp only [List.mem_cons, not_or] at hpre
    obtain ⟨hc, hpre⟩ := hpre
    obtain hsame | ⟨e, es₁, hsame, he⟩ := heads es
    · rw [hsame.text, text_nil] at h
      cases h
    · rw [hsame.text, text_cons] at h
      obtain ⟨d, rfl⟩ | rfl | ⟨k, rfl⟩ | ⟨k, fmt, rfl⟩ := he
      · obtain ⟨rfl, hrest⟩ := List.cons.inj h
        obtain ⟨es', hes', hsame'⟩ := ih hpre es₁ hrest
        exact ⟨es', hes', hsame.trans ((hsame'.cons _).trans (.symm_cut _ _ _))⟩
      all_goals
        obtain ⟨hhead, -⟩ := List.cons.inj h
        exact absurd hhead hc

theorem takeWhile_drop (p : Char → Bool) (s : List Char) :
    s.takeWhile p ++ s.drop (s.takeWhile p).length = s :=
  List.prefix_iff_eq_append.mp (List.takeWhile_prefix p)

theorem item_plain {s str rest : List Char} (h : item s = .plain str rest) : s = str ++ rest := by
  rw [item] at h
  split at h
  · dsimp only at h
    split at h <;> cases h
  · cases h
    exact (takeWhile_drop _ s).symm

theorem item_braced {s str fmt rest : List Char} (h : item s = .braced str fmt rest) :
    ∃ tail, rest = '}' :: tail ∧ s = str ++ ('{' :: fmt ++ '}' :: tail) ∧
      ∀ c ∈ fmt, c.isAlpha = true ∨ c = '{' := by
  rw [item] at h
  split at h
  · rename_i s' hopen
    dsimp only at h
    split at h
    · rename_i tail hclose
      cases h
      refine ⟨tail, rfl, ?_, ?_⟩
      · have hfmt := takeWhile_drop (fun c => c.isAlpha || c == '{') s'
        rw [hclose] at hfmt
        have hstr := takeWhile_drop (fun c => c.isAlpha || c == '}') s
        rw [hopen, ← hfmt] at hstr
        exact hstr.symm
      · intro c hc
        have hall := List.all_takeWhile (p := fun c : Char => c.isAlpha || c == '{') (l := s')
        simpa using List.all_eq_true.mp hall c hc
    · cases h
  · cases h

/-- A letter and nothing that goes on it. -/
theorem item_directive {k : Char} {s : List Char} (hk : [k] ∈ names)
    (hs : ∀ c ∈ s.head?, Element.continues c = false) : item (k :: s) = .plain [k] s := by
  obtain ⟨k', hk', halpha, -, -, -⟩ := letter_of_named hk
  cases hk'
  cases s with
  | nil => simp [item, halpha]
  | cons c s =>
    have hc := hs c rfl
    simp only [Element.continues, Bool.or_eq_false_iff, beq_eq_false_iff_ne, ne_eq] at hc
    obtain ⟨⟨hletter, hopen⟩, hclose⟩ := hc
    have hstr : (k :: c :: s).takeWhile (fun c => c.isAlpha || c == '}') = [k] := by
      simp [halpha, hletter, hclose]
    rw [item, hstr]
    simp only [List.length_singleton, List.drop_succ_cons, List.drop_zero]
    split
    · rename_i heq
      cases heq
      exact absurd rfl hopen
    · rfl

/-- Where the inner loop stops in a format without braces. -/
theorem format_ends {fmt : List Char} (hopen : '{' ∉ fmt) (hclose : '}' ∉ fmt) (s : List Char) :
    ((fmt ++ '}' :: s).takeWhile (fun c => c.isAlpha || c == '{') = fmt ∧
      fmt.all Char.isAlpha = true) ∨
    ((∃ c t, (fmt ++ '}' :: s).drop
        ((fmt ++ '}' :: s).takeWhile fun c => c.isAlpha || c == '{').length = c :: t ∧ c ≠ '}') ∧
      fmt.all Char.isAlpha = false) := by
  induction fmt with
  | nil => exact .inl ⟨by simp, rfl⟩
  | cons d fmt ih =>
    simp only [List.mem_cons, not_or] at hopen hclose
    by_cases hd : d.isAlpha = true
    · simpa [hd] using ih hopen.2 hclose.2
    · have hd' : (d == '{') = false := beq_eq_false_iff_ne.mpr fun h => hopen.1 h.symm
      simp only [Bool.not_eq_true] at hd
      simp [hd, hd', Ne.symm hclose.1]

/-- A letter and a format: the format is found when it is letters. -/
theorem item_formatted {k : Char} {fmt : List Char} (hk : [k] ∈ names) (hopen : '{' ∉ fmt)
    (hclose : '}' ∉ fmt) (s : List Char) :
    item (k :: '{' :: fmt ++ '}' :: s) =
      if fmt.all Char.isAlpha then .braced [k] fmt ('}' :: s) else .open := by
  obtain ⟨k', hk', halpha, -, -, -⟩ := letter_of_named hk
  cases hk'
  have hstr : (k :: '{' :: fmt ++ '}' :: s).takeWhile (fun c => c.isAlpha || c == '}') = [k] := by
    simp [halpha]
  rw [item, hstr]
  simp only [List.cons_append, List.length_singleton, List.drop_succ_cons, List.drop_zero]
  obtain ⟨hfmt, hall⟩ | ⟨⟨c, t, hc, hne⟩, hall⟩ := format_ends hopen hclose s
  · simp [hfmt, hall]
  · rw [hall, hc]
    split
    · rename_i heq
      cases heq
      exact absurd rfl hne
    · rfl

/-! ## The outer loop -/

section Loop

variable {n : Nat} {nstr s str fmt rest : List Char} {c : Char}

theorem loop_nil (n : Nat) (nstr : List Char) : loop n nstr [] = (flush nstr, false) := by
  cases n <;> rfl

theorem loop_char (nstr : List Char) (hc : c ≠ '%') : loop (n + 1) nstr (c :: s) = loop n (nstr ++ [c]) s := by
  rw [loop]
  · intro s' h
    exact absurd h hc
  · exact hc

theorem loop_percent : loop (n + 1) nstr ('%' :: '%' :: s) = loop n (nstr ++ ['%']) ('%' :: s) :=
  rfl

theorem loop_plain (nstr : List Char) (hs : s.head? ≠ some '%') (h : item s = .plain str rest) :
    loop (n + 1) nstr ('%' :: s) =
      (flush nstr ++ .item str [] :: (loop n [] rest).1, (loop n [] rest).2) := by
  rw [loop, h]
  rintro s' rfl
  exact hs rfl

theorem loop_braced (nstr : List Char) (hs : s.head? ≠ some '%') (h : item s = .braced str fmt rest) :
    loop (n + 1) nstr ('%' :: s) =
      (flush nstr ++ .item str fmt :: (loop n [] rest).1, (loop n [] rest).2) := by
  rw [loop, h]
  rintro s' rfl
  exact hs rfl

theorem loop_open (nstr : List Char) (hs : s.head? ≠ some '%') (h : item s = .open) :
    (loop (n + 1) nstr ('%' :: s)).2 = true := by
  rw [loop, h]
  rintro s' rfl
  exact hs rfl

theorem clean_flush (nstr : List Char) : Clean (flush nstr, false) := by
  constructor
  · rfl
  · intro str fmt hmem
    rw [flush] at hmem
    split at hmem <;> simp at hmem

theorem clean_item {vec : List Part} {error : Bool} :
    Clean (flush nstr ++ .item str fmt :: vec, error) ↔ str ∈ names ∧ Clean (vec, error) := by
  simp only [Clean, List.mem_append, List.mem_cons]
  constructor
  · rintro ⟨herror, hparts⟩
    exact ⟨hparts str fmt (.inr (.inl rfl)), herror, fun str' fmt' h =>
      hparts str' fmt' (.inr (.inr h))⟩
  · rintro ⟨hname, herror, hparts⟩
    constructor
    · exact herror
    · rintro str' fmt' (hmem | hmem | hmem)
      · exact (clean_flush nstr).2 str' fmt' hmem
      · cases hmem
        exact hname
      · exact hparts str' fmt' hmem

end Loop

/-! ## What is taken -/

section Taken

variable (api : TimeApi) (level : LogLevel) (event : LogEvent) (buf : List Char)

/-- What entries of `vec` write. -/
def written (vec : List Part) : List Char :=
  vec.flatMap fun part => part.toItem.format api level event buf

theorem written_flush (nstr : List Char) (vec : List Part) :
    written api level event buf (flush nstr ++ vec) =
      nstr ++ written api level event buf vec := by
  rw [flush]
  split
  · rename_i h
    simp [h]
  · simp [written, Part.toItem, FormatItem.format]

@[simp] theorem written_nil : written api level event buf [] = [] := rfl

theorem written_cons (part : Part) (vec : List Part) :
    written api level event buf (part :: vec) =
      part.toItem.format api level event buf ++ written api level event buf vec := rfl

theorem format_eq (pattern : String) :
    format api level event buf pattern = written api level event buf (init pattern).1 := by
  simp [format, items, written, List.flatMap_map]

/-- The item of a directive writes what the directive means. -/
theorem toItem_directive {k : Char} (hk : [k] ∈ names) :
    (Part.item [k] []).toItem.format api level event buf =
      (Element.directive k).meaning api level event buf := by
  obtain ⟨i, hi⟩ := formatItems_named hk []
  simp [Part.toItem, Element.meaning, hi]

theorem toItem_formatted {k : Char} {fmt : List Char} (hk : [k] ∈ names) :
    (Part.item [k] fmt).toItem.format api level event buf =
      (Element.formatted k fmt).meaning api level event buf := by
  obtain ⟨i, hi⟩ := formatItems_named hk fmt
  simp [Part.toItem, Element.meaning, hi]

theorem head_of_named {k : Char} (hk : [k] ∈ names) (s : List Char) :
    (k :: s).head? ≠ some '%' := by
  obtain ⟨k', hk', -, hne, -⟩ := letter_of_named hk
  cases hk'
  simpa using hne

theorem loop_done (n : Nat) (nstr : List Char) {es : List Element} (hsame : Same es []) :
    Clean (loop n nstr (text es)) ∧
      written api level event buf (loop n nstr (text es)).1 =
        nstr ++ meaning api level event buf es := by
  rw [hsame.text, hsame.meaning, text_nil, loop_nil]
  constructor
  · exact clean_flush nstr
  · simpa using written_flush api level event buf nstr []

/-- Text and plain directives are read as they are meant. -/
theorem loop_taken (n : Nat) (nstr : List Char) (es : List Element) (hn : (text es).length ≤ n)
    (hvalid : Valid es) (htaken : astray es = 0) :
    Clean (loop n nstr (text es)) ∧
      written api level event buf (loop n nstr (text es)).1 =
        nstr ++ meaning api level event buf es := by
  induction n generalizing nstr es with
  | zero =>
    obtain hsame | ⟨e, es', hsame, he⟩ := heads es
    · exact loop_done api level event buf _ nstr hsame
    · rw [hsame.text] at hn
      obtain ⟨c, rfl⟩ | rfl | ⟨k, rfl⟩ | ⟨k, fmt, rfl⟩ := he <;> simp [Element.chars] at hn
  | succ n ih =>
    obtain hsame | ⟨e, es', hsame, he⟩ := heads es
    · exact loop_done api level event buf _ nstr hsame
    · rw [hsame.text] at hn
      rw [hsame.astray] at htaken
      rw [hsame.text, hsame.meaning]
      obtain ⟨he', hbefore, hes'⟩ := hsame.valid hvalid
      obtain ⟨c, rfl⟩ | rfl | ⟨k, rfl⟩ | ⟨k, fmt, rfl⟩ := he
      · simp only [Element.Valid, List.mem_singleton] at he'
        simp [Element.chars] at hn
        simp [Element.taken] at htaken
        obtain ⟨hclean, hwritten⟩ := ih (nstr ++ [c]) es' hn hes' htaken
        have hloop := loop_char (n := n) (s := text es') nstr (Ne.symm he')
        simp only [text_cons, Element.chars, List.singleton_append, hloop]
        constructor
        · exact hclean
        · simpa [Element.meaning] using hwritten
      · simp [Element.taken] at htaken
      · simp [Element.chars] at hn
        simp [Element.taken] at htaken
        obtain ⟨hclean, hwritten⟩ := ih [] es' (by omega) hes' htaken
        have hloop := loop_plain (n := n) nstr (head_of_named he' (text es'))
          (item_directive he' hbefore)
        simp only [text_cons, Element.chars, List.cons_append, List.nil_append, hloop]
        constructor
        · exact clean_item.mpr ⟨he', hclean⟩
        · rw [written_flush, written_cons, toItem_directive api level event buf he', hwritten,
            meaning_cons, List.nil_append]
      · simp [Element.taken] at htaken

end Taken

/-! ## What is not

The characters that come in addition, a second percent sign and the brace behind a format, weigh
more than the letters that are read as directives. -/

def weigh (c : Char) : Int := if c = '%' ∨ c = '}' then 1 else if [c] ∈ names then -1 else 0

def weight (s : List Char) : Int := (s.map weigh).sum

@[simp] theorem weight_nil : weight [] = 0 := rfl

@[simp] theorem weight_cons (c : Char) (s : List Char) : weight (c :: s) = weigh c + weight s := by
  simp [weight]

@[simp] theorem weight_append (s s' : List Char) : weight (s ++ s') = weight s + weight s' := by
  simp [weight]

theorem weigh_named {k : Char} (hk : [k] ∈ names) : weigh k = -1 := by
  obtain ⟨k', hk', -, hpercent, -, hclose⟩ := letter_of_named hk
  cases hk'
  simp [weigh, hk, hpercent, hclose]

theorem weight_nothing {s : List Char} (h : ∀ c ∈ s, weigh c = 0) : weight s = 0 := by
  induction s with
  | nil => rfl
  | cons c s ih =>
    have hc := h c (by simp)
    have hs := ih fun d hd => h d (by simp [hd])
    simp [hc, hs]

/-- Formats of letters weigh nothing or less. -/
theorem weight_letters {fmt : List Char} (h : ∀ c ∈ fmt, c.isAlpha = true ∨ c = '{') :
    weight fmt ≤ 0 := by
  induction fmt with
  | nil => simp
  | cons c fmt ih =>
    have hfmt := ih fun d hd => h d (by simp [hd])
    have hc : weigh c ≤ 0 := by
      have hc := h c (by simp)
      rw [weigh]
      split
      · rename_i hheavy
        obtain rfl | rfl := hheavy <;> simp at hc
      · split <;> decide
    rw [weight_cons]
    omega

section Astray

variable (api : TimeApi) {es es' : List Element} {s : List Char}

/-- An event without texts. -/
def blank : LogEvent := ⟨[], 0, 0, 0, 0, 0, [], [], []⟩

/-- What a date is made of weighs nothing. -/
theorem weigh_date {c : Char} (h : c.isDigit = true ∨ c ∈ ['-', ':', ' ']) : weigh c = 0 := by
  have hheavy : ¬ (c = '%' ∨ c = '}') := by
    rintro (rfl | rfl) <;> simp at h
  have hname : [c] ∉ names := by
    intro hname
    simp only [names, List.mem_cons, List.not_mem_nil, or_false, List.cons.injEq, and_true] at hname
    rcases hname with rfl | rfl | rfl | rfl | rfl | rfl | rfl | rfl | rfl | rfl | rfl | rfl | rfl <;>
      simp at h
  rw [weigh, if_neg hheavy, if_neg hname]

theorem weight_time {fmt : List Char} (h : ∀ c ∈ fmt, c.isAlpha = true ∨ c = '{') :
    weight fmt ≤ weight ((FormatItem.time
      (if fmt = [] then "%Y-%m-%d %H:%M:%S".toList else fmt)).format api .DEBUG blank []) := by
  by_cases hempty : fmt = []
  · rw [if_pos hempty, hempty, weight_nil, FormatItem.format]
    have hfmt : ("%Y-%m-%d %H:%M:%S".toList.takeWhile (· != '\x00')) =
        "%Y-%m-%d %H:%M:%S".toList := by decide
    rw [hfmt]
    split
    · exact Int.le_of_eq (weight_nothing fun c hc => weigh_date (api.date _ c hc)).symm
    · simp
  · have hletters := weight_letters h
    have hzero : fmt.takeWhile (· != '\x00') = fmt := by
      rw [List.takeWhile_eq_self_iff]
      intro c hc
      rw [bne_iff_ne]
      rintro rfl
      have := h _ hc
      simp at this
    have hpercent : '%' ∉ fmt := by
      intro hmem
      have := h _ hmem
      simp at this
    rw [if_neg hempty, FormatItem.format, hzero, api.copies fmt _ hpercent]
    split
    · exact Int.le_refl _
    · simpa using hletters

/-- An item weighs no less than its format. -/
theorem weight_item {str fmt : List Char} (hstr : str ∈ names)
    (h : ∀ c ∈ fmt, c.isAlpha = true ∨ c = '{') :
    weight fmt ≤ weight ((Part.item str fmt).toItem.format api .DEBUG blank []) := by
  have hletters := weight_letters h
  have hlevel : 0 ≤ weight "DEBUG".toList := by decide
  have hzero : 0 ≤ weight "0".toList := by decide
  have hnewLine : 0 ≤ weight ['\n'] := by decide
  have htab : 0 ≤ weight ['\t'] := by decide
  simp only [names, List.mem_cons, List.not_mem_nil, or_false] at hstr
  rcases hstr with rfl | rfl | rfl | rfl | rfl | rfl | rfl | rfl | rfl | rfl | rfl | rfl | rfl
  · exact hletters
  · exact Int.le_trans hletters hlevel
  · exact Int.le_trans hletters hzero
  · exact hletters
  · exact Int.le_trans hletters hzero
  · exact Int.le_trans hletters hnewLine
  · exact weight_time api h
  · exact hletters
  · exact Int.le_trans hletters hzero
  · exact Int.le_trans hletters htab
  · exact Int.le_trans hletters hzero
  · exact Int.le_refl (weight fmt)
  · exact hletters

/-- The weight of what elements mean. -/
def worth (es : List Element) : Int := weight (meaning api .DEBUG blank [] es)

/-- Elements that are not taken make the result heavier. -/
def HeavierAt (n : Nat) (nstr : List Char) (es : List Element) : Prop :=
  Clean (loop n nstr (text es)) →
    weight nstr + worth api es + astray es ≤
      weight (written api .DEBUG blank [] (loop n nstr (text es)).1)

def Heavier (n : Nat) : Prop :=
  ∀ nstr es, (text es).length ≤ n → Valid es → HeavierAt api n nstr es


theorem worth_cons (e : Element) (es : List Element) :
    worth api (e :: es) = weight (e.meaning api .DEBUG blank []) + worth api es := by
  rw [worth, meaning_cons, weight_append, worth]

theorem worth_same (h : Same es es') : worth api es = worth api es' := by
  rw [worth, h.meaning, worth]

theorem worth_text (h : Same es (.text s :: es')) : worth api es = weight s + worth api es' := by
  rw [worth_same api h, worth_cons]
  rfl

theorem astray_text (h : Same es (.text s :: es')) : astray es = astray es' := by
  rw [h.astray, astray_cons]
  rfl

/-- The second of two percent signs begins something. -/
theorem heavier_percent {n : Nat} (ih : Heavier api n) (nstr : List Char)
    (es : List Element) (hn : (text es).length ≤ n) (hvalid : Valid es)
    (hclean : Clean (loop (n + 1) nstr ('%' :: text es))) :
    weight nstr + worth api es + astray es + 1 ≤
      weight (written api .DEBUG blank [] (loop (n + 1) nstr ('%' :: text es)).1) := by
  by_cases hhead : (text es).head? = some '%'
  · obtain ⟨s, hs⟩ : ∃ s, text es = '%' :: s := by
      cases htext : text es with
      | nil => simp [htext] at hhead
      | cons c s =>
        rw [htext] at hhead
        cases hhead
        exact ⟨s, rfl⟩
    have hloop : loop (n + 1) nstr ('%' :: text es) = loop n (nstr ++ ['%']) (text es) := by
      rw [hs, loop_percent]
    rw [hloop] at hclean ⊢
    have hrest := ih (nstr ++ ['%']) es hn hvalid hclean
    have hweigh : weight (nstr ++ ['%']) = weight nstr + 1 := by simp [weigh]
    omega
  · cases hitem : item (text es) with
    | plain str rest =>
      rw [loop_plain nstr hhead hitem] at hclean ⊢
      obtain ⟨hstr, hrest⟩ := clean_item.mp hclean
      obtain ⟨k, rfl, -, hk, -, -⟩ := letter_of_named hstr
      have htext := item_plain hitem
      obtain ⟨es', rfl, hsame⟩ := split_text (by simpa using Ne.symm hk) es htext
      have hlength : (text es').length ≤ n := by
        rw [htext] at hn
        simp at hn
        omega
      obtain ⟨-, -, hvalid'⟩ := hsame.valid hvalid
      have hrest := ih [] es' hlength hvalid' hrest
      have hempty : ∀ c ∈ ([] : List Char), c.isAlpha = true ∨ c = '{' := by simp
      have hitem := weight_item api hstr hempty
      have hworth := worth_text api hsame
      have hastray := astray_text hsame
      have hweigh := weigh_named hstr
      rw [written_flush, written_cons, weight_append, weight_append]
      simp only [weight_nil, weight_cons] at *
      omega
    | «open» =>
      have hopen := loop_open (n := n) nstr hhead hitem
      rw [hclean.1] at hopen
      cases hopen
    | braced str fmt rest =>
      rw [loop_braced nstr hhead hitem] at hclean ⊢
      obtain ⟨hstr, hrest⟩ := clean_item.mp hclean
      obtain ⟨k, rfl, -, hk, -, -⟩ := letter_of_named hstr
      obtain ⟨tail, rfl, htext, hfmt⟩ := item_braced hitem
      have hpre : '%' ∉ k :: '{' :: fmt := by
        simp only [List.mem_cons, not_or]
        refine ⟨Ne.symm hk, by decide, ?_⟩
        intro hmem
        have := hfmt _ hmem
        simp at this
      have htext' : text es = (k :: '{' :: fmt) ++ '}' :: tail := by simpa using htext
      obtain ⟨es', hes', hsame⟩ := split_text hpre es htext'
      have hlength : (text es').length ≤ n := by
        rw [htext] at hn
        rw [hes']
        simp at hn ⊢
        omega
      obtain ⟨-, -, hvalid'⟩ := hsame.valid hvalid
      rw [← hes'] at hrest ⊢
      have hrest := ih [] es' hlength hvalid' hrest
      have hitem := weight_item api hstr hfmt
      have hworth := worth_text api hsame
      have hastray := astray_text hsame
      have hweigh := weigh_named hstr
      have hbrace : weigh '{' = 0 := by decide
      rw [written_flush, written_cons, weight_append, weight_append]
      simp only [weight_nil, weight_cons] at *
      omega

section Step

variable {n : Nat} {nstr : List Char}

theorem heavierAt_same (h : Same es es') (hes : HeavierAt api n nstr es') :
    HeavierAt api n nstr es := by
  rw [HeavierAt, h.text, worth_same api h, h.astray]
  exact hes

theorem heavierAt_char (ih : Heavier api n) {c : Char}
    (hn : (text (.text [c] :: es)).length ≤ n + 1) (hvalid : Valid (.text [c] :: es)) :
    HeavierAt api (n + 1) nstr (.text [c] :: es) := by
  intro hclean
  obtain ⟨hc, -, hes⟩ := hvalid
  replace hc : c ≠ '%' := by
    rintro rfl
    simp [Element.Valid] at hc
  simp only [text_cons, Element.chars, List.singleton_append, loop_char nstr hc] at hclean ⊢
  have hlength : (text es).length ≤ n := by
    simp [Element.chars] at hn
    exact hn
  have hrest := ih (nstr ++ [c]) es hlength hes hclean
  have hworth := worth_text api (Same.refl (.text [c] :: es))
  have hastray := astray_text (Same.refl (.text [c] :: es))
  rw [weight_append] at hrest
  omega

theorem heavierAt_percent (ih : Heavier api n)
    (hn : (text (.percent :: es)).length ≤ n + 1 + 1) (hvalid : Valid (.percent :: es)) :
    HeavierAt api (n + 1 + 1) nstr (.percent :: es) := by
  intro hclean
  obtain ⟨-, -, hes⟩ := hvalid
  simp only [text_cons, Element.chars, List.cons_append, List.nil_append, loop_percent] at hclean ⊢
  have hlength : (text es).length ≤ n := by
    simp [Element.chars] at hn
    exact hn
  have hrest := heavier_percent api ih (nstr ++ ['%']) es hlength hes hclean
  have hworth := worth_cons api .percent es
  have hastray : astray (.percent :: es) = astray es + 1 := astray_cons .percent es
  have hweigh : weight ['%'] = 1 := by decide
  simp only [weight_append, Element.meaning] at hrest hworth
  omega

theorem heavierAt_directive (ih : Heavier api n) {k : Char}
    (hn : (text (.directive k :: es)).length ≤ n + 1) (hvalid : Valid (.directive k :: es)) :
    HeavierAt api (n + 1) nstr (.directive k :: es) := by
  intro hclean
  obtain ⟨hk, hbefore, hes⟩ := hvalid
  have hloop := loop_plain (n := n) nstr (head_of_named hk (text es))
    (item_directive hk hbefore)
  simp only [text_cons, Element.chars, List.cons_append, List.nil_append, hloop] at hclean ⊢
  have hlength : (text es).length ≤ n := by
    simp [Element.chars] at hn
    omega
  have hrest := ih [] es hlength hes (clean_item.mp hclean).2
  have hworth := worth_cons api (.directive k) es
  have hastray : astray (.directive k :: es) = astray es := astray_cons (.directive k) es
  rw [written_flush, written_cons, toItem_directive api .DEBUG blank [] hk, weight_append,
    weight_append]
  rw [weight_nil] at hrest
  omega

/-- The brace behind a format is read as text. -/
theorem heavierAt_formatted (ih : Heavier api n) {k : Char} {fmt : List Char}
    (hn : (text (.formatted k fmt :: es)).length ≤ n + 1)
    (hvalid : Valid (.formatted k fmt :: es)) :
    HeavierAt api (n + 1) nstr (.formatted k fmt :: es) := by
  intro hclean
  obtain ⟨⟨hk, hopen, hclose⟩, -, hes⟩ := hvalid
  have hitem := item_formatted hk hopen hclose (text es)
  have hhead : (k :: '{' :: fmt ++ '}' :: text es).head? ≠ some '%' := head_of_named hk _
  have htext : text (.formatted k fmt :: es) = '%' :: (k :: '{' :: fmt ++ '}' :: text es) := by
    simp [Element.chars]
  rw [htext] at hn hclean ⊢
  split at hitem
  · have hbrace : text (.text ['}'] :: es) = '}' :: text es := rfl
    have hlength : (text (.text ['}'] :: es)).length ≤ n := by
      rw [hbrace]
      simp at hn ⊢
      omega
    have hvalid' : Valid (.text ['}'] :: es) := ⟨by simp [Element.Valid], trivial, hes⟩
    rw [loop_braced nstr hhead hitem] at hclean ⊢
    rw [← hbrace] at hclean ⊢
    have hrest := ih [] (.text ['}'] :: es) hlength hvalid' (clean_item.mp hclean).2
    have hmean := worth_text api (Same.refl (.text ['}'] :: es))
    have hmean' := astray_text (Same.refl (.text ['}'] :: es))
    have hworth := worth_cons api (.formatted k fmt) es
    have hastray : astray (.formatted k fmt :: es) = astray es + 1 :=
      astray_cons (.formatted k fmt) es
    have hweigh : weight ['}'] = 1 := by decide
    rw [written_flush, written_cons, toItem_formatted api .DEBUG blank [] hk, weight_append,
      weight_append]
    rw [weight_nil] at hrest
    omega
  · have herror := loop_open (n := n) nstr hhead hitem
    rw [hclean.1] at herror
    cases herror

end Step

theorem heavier (n : Nat) : Heavier api n := by
  induction n using Nat.strong_induction_on with
  | _ n ih =>
    intro nstr es hn hvalid
    obtain hsame | ⟨e, es', hsame, he⟩ := heads es
    · intro hclean
      obtain ⟨-, hwritten⟩ := loop_done api .DEBUG blank [] n nstr hsame
      have hastray : astray es = 0 := hsame.astray
      rw [hwritten, weight_append, hastray, worth]
      omega
    · apply heavierAt_same api hsame
      replace hvalid := hsame.valid hvalid
      rw [hsame.text] at hn
      cases n with
      | zero => obtain ⟨c, rfl⟩ | rfl | ⟨k, rfl⟩ | ⟨k, fmt, rfl⟩ := he <;> simp [Element.chars] at hn
      | succ n =>
        have hih := ih n (Nat.lt_succ_self n)
        obtain ⟨c, rfl⟩ | rfl | ⟨k, rfl⟩ | ⟨k, fmt, rfl⟩ := he
        · exact heavierAt_char api hih hn hvalid
        · cases n with
          | zero => simp [Element.chars] at hn
          | succ n => exact heavierAt_percent api (ih n (by omega)) hn hvalid
        · exact heavierAt_directive api hih hn hvalid
        · exact heavierAt_formatted api hih hn hvalid

end Astray

/-- A pattern is read as it is meant exactly when it has neither `%%` nor a directive with a
format. -/
theorem follows_grammar_iff (api : TimeApi) (es : List Element) (hvalid : Valid es) :
    (isError (String.ofList (text es)) = false ∧ ∀ level event buf,
      format api level event buf (String.ofList (text es)) = meaning api level event buf es) ↔
    ∀ e ∈ es, e.taken = true := by
  have hinit : init (String.ofList (text es)) = loop (text es).length [] (text es) := by
    rw [init, String.toList_ofList]
  have htaken : (∀ e ∈ es, e.taken = true) ↔ astray es = 0 := by
    simp [astray, List.countP_eq_zero]
  rw [htaken]
  constructor
  · rintro ⟨herror, hformat⟩
    have hclean := (isError_iff _).mp herror
    rw [hinit] at hclean
    have hheavier := heavier api _ [] es (Nat.le_refl _) hvalid hclean
    have hsame := hformat .DEBUG blank []
    rw [format_eq, hinit] at hsame
    rw [hsame, weight_nil, worth] at hheavier
    omega
  · intro hastray
    constructor
    · rw [isError_iff, hinit]
      exact (loop_taken api .DEBUG blank [] _ [] es (Nat.le_refl _) hvalid hastray).1
    · intro level event buf
      rw [format_eq, hinit]
      exact (loop_taken api level event buf _ [] es (Nat.le_refl _) hvalid hastray).2

theorem date_epoch :
    ∀ c ∈ "1970-01-01 00:00:00".toList, c.isDigit = true ∨ c ∈ ['-', ':', ' '] := by
  have hall : "1970-01-01 00:00:00".toList.all
      (fun c => c.isDigit || ['-', ':', ' '].contains c) = true := by decide
  intro c hc
  have hdate := List.all_eq_true.mp hall c hc
  rwa [Bool.or_eq_true, List.contains_iff_mem] at hdate

/-- The start of 1970, for the default format. -/
def epoch : TimeApi where
  strftime fmt _ := if '%' ∈ fmt then "1970-01-01 00:00:00".toList else fmt
  copies _ _ h := if_neg h
  date _ := by
    rw [if_pos (by decide)]
    exact date_epoch

theorem follows_grammar_iff_level :
    isError (String.ofList (text [.text ['['], .directive 'p', .text [']']])) = false ∧
      ∀ level event buf,
        format epoch level event buf
            (String.ofList (text [.text ['['], .directive 'p', .text [']']])) =
          '[' :: level.ToString.toList ++ [']'] :=
  (follows_grammar_iff epoch [.text ['['], .directive 'p', .text [']']]
    (by decide)).mpr (by decide)

/-- The format in the comment, and a percent sign before a blank. -/
theorem date_format_error :
    (Valid [.formatted 'd' "%Y-%m-%d %H:%M:%S".toList] ∧
      isError (String.ofList (text [.formatted 'd' "%Y-%m-%d %H:%M:%S".toList])) = true) ∧
    Valid [.percent, .text [' ']] ∧
      isError (String.ofList (text [.percent, .text [' ']])) = true :=
  ⟨⟨by decide, by decide⟩, by decide, by decide⟩

end LogFormat

end CxkFramework
