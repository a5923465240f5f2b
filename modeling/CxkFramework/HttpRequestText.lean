import CxkFramework.HttpFraming
import Mathlib.Data.List.TakeWhile

/-!
# Printing a request and reading it back

`HttpRequest::toString` and `HttpSession::recvRequest`. A printed head is read in pieces, each from a
state in which no offset is live to another such state; what a piece says of the request does not
depend on where in the buffer it is.
-/

namespace CxkFramework

open Scanner Blocks HttpParser

/-! ## The printer -/

/-- `HttpMethodToString`. -/
def HttpMethod.toChars (m : HttpMethod) : List UInt8 :=
  match HttpMethod.names.find? fun n => n.1 = m with
  | some n => chars n.2
  | none => chars "<unknown>"

theorem HttpMethod.toChars_range {m : HttpMethod} {b : UInt8} (h : b ∈ m.toChars) :
    b = 45 ∨ 60 ≤ b := by
  rw [toChars] at h
  cases hfind : names.find? fun n => n.1 = m with
  | none =>
    rw [hfind] at h
    have hunknown : ∀ b ∈ chars "<unknown>", (60 : UInt8) ≤ b :=
      List.all_iff_forall_prop.mp (by decide)
    exact .inr (hunknown b h)
  | some n =>
    rw [hfind] at h
    obtain hdash | hcapital := names_capital n (List.mem_of_find?_eq_some hfind) b h
    · exact .inl hdash
    · have hcapitals : (60 : UInt8) ≤ 65 := by decide
      exact .inr (UInt8.le_trans hcapitals hcapital.1)

/-- A number as a stream prints it. -/
def decimal (n : Nat) : List UInt8 := (Nat.toDigits 10 n).map fun c => UInt8.ofNat c.toNat

theorem decimal_range {n : Nat} {b : UInt8} (h : b ∈ decimal n) : 48 ≤ b.toNat ∧ b.toNat ≤ 57 := by
  obtain ⟨c, hc, rfl⟩ := List.mem_map.mp h
  have hdigit := Nat.isDigit_of_mem_toDigits (by decide) (by decide) hc
  have hrange : 48 ≤ c.toNat ∧ c.toNat ≤ 57 := by
    simpa [Char.isDigit, UInt32.le_iff_toNat_le] using hdigit
  rwa [UInt8.toNat_ofNat', Nat.mod_eq_of_lt (by omega)]

/-- What all digits have. -/
theorem of_mem_decimal {P : UInt8 → Prop} (hall : ∀ i : Fin 58, 48 ≤ i.val → P (UInt8.ofNat i))
    {n : Nat} {b : UInt8} (h : b ∈ decimal n) : P b := by
  obtain ⟨hlow, hhigh⟩ := decimal_range h
  have hb := hall ⟨b.toNat, by omega⟩ hlow
  rwa [UInt8.ofNat_toNat] at hb

theorem decimal_ne_nil (n : Nat) : decimal n ≠ [] := by
  simp [decimal, Nat.toDigits_ne_nil]

/-- A string that C takes whole. -/
theorem takeWhile_no_zero {s : List UInt8} (h : 0 ∉ s) : s.takeWhile (· != 0) = s := by
  rw [List.takeWhile_eq_self_iff]
  intro c hc
  rw [bne_iff_ne]
  rintro rfl
  exact h hc

def crlf : List UInt8 := [13, 10]

namespace HttpRequest

/-- `os << first << ": " << second << "\r\n"`. -/
def field (name value : List UInt8) : List UInt8 := name ++ 58 :: 32 :: (value ++ crlf)

/-- The printed fields of the map. -/
def fields (websocket : Bool) (headers : List (List UInt8 × List UInt8)) : List UInt8 :=
  (headers.filter fun h => websocket || caseFolded h.1 != caseFolded (chars "connection")).flatMap
    fun h => field h.1 h.2

/-- `dump`. Nothing else reads `m_websocket`, so it comes as an argument. -/
def dump (req : HttpRequest) (websocket : Bool) : List UInt8 :=
  req.method.toChars ++ 32 :: (req.path
    ++ ((if req.query = [] then [] else [63]) ++ req.query)
    ++ ((if req.fragment = [] then [] else [35]) ++ req.fragment))
    ++ (chars " HTTP/" ++ decimal (req.version >>> 4).toNat ++ chars "."
      ++ decimal (req.version &&& 0x0F).toNat ++ crlf)
    ++ (if websocket then []
      else field (chars "connection") (if req.close then chars "close" else chars "keep-alive"))
    ++ fields websocket req.headers
    ++ (if req.body = [] then crlf
      else field (chars "content-length") (decimal req.body.length) ++ crlf ++ req.body)

def toString (req : HttpRequest) (websocket : Bool) : List UInt8 := req.dump websocket

end HttpRequest

namespace HttpParser

/-! ## Fields -/

/-- `token`: no control characters and no separators. -/
def isToken (b : UInt8) : Bool :=
  b == 33 || (35 ≤ b && b ≤ 39) || b == 42 || b == 43 || b == 45 || b == 46 ||
    (48 ≤ b && b ≤ 57) || (65 ≤ b && b ≤ 90) || (94 ≤ b && b ≤ 122) || b == 124 || b == 126

/-- What a field value is made of: no control characters. -/
def isContent (b : UInt8) : Bool := 32 ≤ b && b != 127

theorem next_token (uriRelaxed : Bool) {b : UInt8} (h : isToken b = true) :
    (machine uriRelaxed).next 13 b = some (14, [.startField]) ∧
      (machine uriRelaxed).next 14 b = some (14, []) := by
  have hall : ∀ (r : Bool) (i : Fin 256), isToken (UInt8.ofNat i) = true →
      (machine r).next 13 (UInt8.ofNat i) = some (14, [.startField]) ∧
        (machine r).next 14 (UInt8.ofNat i) = some (14, []) := by
    decide +kernel
  have hb := hall uriRelaxed ⟨b.toNat, b.toNat_lt⟩
  simp only [UInt8.ofNat_toNat] at hb
  exact hb h

theorem next_content (uriRelaxed : Bool) {b : UInt8} (h : isContent b = true) :
    (b ≠ 32 → (machine uriRelaxed).next 15 b = some (16, [.startValue])) ∧
      (machine uriRelaxed).next 16 b = some (16, []) := by
  have hall : ∀ (r : Bool) (i : Fin 256), isContent (UInt8.ofNat i) = true →
      (UInt8.ofNat i ≠ 32 → (machine r).next 15 (UInt8.ofNat i) = some (16, [.startValue])) ∧
        (machine r).next 16 (UInt8.ofNat i) = some (16, []) := by
    set_option maxRecDepth 1000 in decide
  have hb := hall uriRelaxed ⟨b.toNat, b.toNat_lt⟩
  simp only [UInt8.ofNat_toNat] at hb
  exact hb h

/-- A field that the parser takes apart again. -/
structure IsField (name value : List UInt8) : Prop where
  name_ne : name ≠ []
  name_token : ∀ b ∈ name, isToken b = true
  value_content : ∀ b ∈ value, isContent b = true
  value_start : value.head? ≠ some 32

/-- Bytes on which a state stays. -/
theorem pass_stay {M : Machine Nat Action} {a : Action} {cs : Nat} {bs : List UInt8}
    (h : ∀ b ∈ bs, M.next cs b = some (cs, [])) (t : List UInt8) :
    M.pass a cs (some t) bs = some (cs, some (t ++ bs)) := by
  induction bs generalizing t with
  | nil => rw [Machine.pass, List.append_nil]
  | cons b bs ih =>
    have hrest := ih (fun b' hb' => h b' (List.mem_cons_of_mem b hb')) (t ++ [b])
    rw [List.append_assoc, List.singleton_append] at hrest
    rw [Machine.pass, h b List.mem_cons_self]
    exact hrest

theorem pass_name (uriRelaxed : Bool) {name : List UInt8} (hne : name ≠ [])
    (h : ∀ b ∈ name, isToken b = true) :
    (machine uriRelaxed).pass .startField 13 none name = some (14, some name) := by
  cases name with
  | nil => exact absurd rfl hne
  | cons b bs =>
    have hrest : (machine uriRelaxed).pass .startField 14 (some [b]) bs = some (14, some (b :: bs)) :=
      pass_stay (fun b' hb' => (next_token uriRelaxed (h b' (List.mem_cons_of_mem b hb'))).2) [b]
    rw [Machine.pass, (next_token uriRelaxed (h b List.mem_cons_self)).1]
    simpa only [if_true] using hrest

theorem pass_value (uriRelaxed : Bool) {b : UInt8} {bs : List UInt8}
    (h : ∀ b' ∈ b :: bs, isContent b' = true) (hstart : b ≠ 32) :
    (machine uriRelaxed).pass .startValue 15 none (b :: bs) = some (16, some (b :: bs)) := by
  have hrest : (machine uriRelaxed).pass .startValue 16 (some [b]) bs = some (16, some (b :: bs)) :=
    pass_stay (fun b' hb' => (next_content uriRelaxed (h b' (List.mem_cons_of_mem b hb'))).2) [b]
  rw [Machine.pass, (next_content uriRelaxed (h b List.mem_cons_self)).1 hstart]
  simpa only [if_true] using hrest

end HttpParser

namespace HttpRequestParser

/-! ## Pieces of a head -/

/-- From state `cs`, with the request `req` so far, the machine reads `text` and comes to `cs'` with
`req'`, wherever `text` is in the buffer and whatever the offsets are. -/
def Reads (uriRelaxed : Bool) (cs : Nat) (req : HttpRequest) (text : List UInt8) (cs' : Nat)
    (req' : HttpRequest) : Prop :=
  ∀ (pre rest : List UInt8) (d : HttpRequestParser), (pre ++ (text ++ rest)).length < 2 ^ 63 →
    d.error = 0 → d.data = req →
    ∃ d', d'.error = 0 ∧ d'.data = req' ∧
      (machine uriRelaxed).exec (perform (pre ++ (text ++ rest))) cs pre.length (text ++ rest) d =
        (machine uriRelaxed).exec (perform (pre ++ (text ++ rest))) cs' (pre ++ text).length rest d'

section Reads

variable {uriRelaxed : Bool} {cs cs' cs'' : Nat} {req req' req'' : HttpRequest}
  {text text' : List UInt8}

theorem Reads.nil (uriRelaxed : Bool) (cs : Nat) (req : HttpRequest) :
    Reads uriRelaxed cs req [] cs req := by
  intro pre rest d _ herror hdata
  exact ⟨d, herror, hdata, by rw [List.nil_append, List.append_nil]⟩

theorem Reads.append (h : Reads uriRelaxed cs req text cs' req')
    (h' : Reads uriRelaxed cs' req' text' cs'' req'') :
    Reads uriRelaxed cs req (text ++ text') cs'' req'' := by
  intro pre rest d hsize herror hdata
  rw [List.append_assoc] at hsize ⊢
  obtain ⟨d₁, herror₁, hdata₁, h₁⟩ := h pre (text' ++ rest) d hsize herror hdata
  have hassoc : pre ++ (text ++ (text' ++ rest)) = (pre ++ text) ++ (text' ++ rest) := by
    rw [List.append_assoc]
  rw [hassoc] at hsize h₁ ⊢
  obtain ⟨d₂, herror₂, hdata₂, h₂⟩ := h' (pre ++ text) rest d₁ hsize herror₁ hdata₁
  refine ⟨d₂, herror₂, hdata₂, ?_⟩
  rw [h₁, h₂, ← List.append_assoc pre text text']

/-- What the machine does on one byte, in the text `before ++ b :: rest`. -/
theorem exec_step {buffer rest : List UInt8} {b : UInt8} {as : List Action} {p : Nat}
    {d d' : HttpRequestParser} (hnext : (machine uriRelaxed).next cs b = some (cs', as))
    (hstop : as.any (machine uriRelaxed).stops = false)
    (hact : performAll (perform buffer p) as d = .ok d') :
    (machine uriRelaxed).exec (perform buffer) cs p (b :: rest) d =
      (machine uriRelaxed).exec (perform buffer) cs' (p + 1) rest d' := by
  rw [Machine.exec, hnext]
  simp only [hact, hstop, Bool.false_eq_true, if_false]

/-- The text since a mark, and what is behind it. -/
theorem drop_marked {pre bs rest t : List UInt8} (h : t <:+ bs) :
    (pre ++ (bs ++ rest)).drop (pre.length + bs.length - t.length) = t ++ rest := by
  obtain ⟨u, rfl⟩ := h
  have hpos : pre.length + (u ++ t).length - t.length = (pre ++ u).length := by
    rw [List.length_append, List.length_append]
    omega
  rw [hpos, List.append_assoc, ← List.append_assoc, List.drop_left]

theorem makeString_marked {t rest : List UInt8} {p : Nat} (ht : t.length ≤ p) (hp : p < 2 ^ 63) :
    makeString (t ++ rest) (len (p - t.length) p) = .ok t := by
  have hlen : len (p - t.length) p = t.length := by
    rw [len_of_le (by omega) hp]
    omega
  rw [hlen, makeString, if_neg (by omega), List.take_left]

def setMark (p : Nat) (d : HttpRequestParser) : HttpRequestParser := { d with mark := p }

def setFieldStart (p : Nat) (d : HttpRequestParser) : HttpRequestParser := { d with fieldStart := p }

def setQueryStart (p : Nat) (d : HttpRequestParser) : HttpRequestParser := { d with queryStart := p }

/-- Bytes that are passed with a mark, and a byte with actions. -/
theorem reads_piece {a : Action} {set : Nat → HttpRequestParser → HttpRequestParser}
    (hset : ∀ buffer p d, perform buffer p a d = .ok (set p d))
    (hover : ∀ i j d, set i (set j d) = set i d) (hdone : a ≠ .done) {bs : List UInt8} {c : UInt8}
    {t : Option (List UInt8)} {as : List Action}
    (hpass : (machine uriRelaxed).pass a cs none bs = some (cs'', t))
    (hnext : (machine uriRelaxed).next cs'' c = some (cs', as))
    (hstop : as.any (machine uriRelaxed).stops = false)
    (hact : ∀ (pre rest : List UInt8) (d : HttpRequestParser),
      (pre ++ (bs ++ c :: rest)).length < 2 ^ 63 → d.error = 0 → d.data = req →
      ∃ d', d'.error = 0 ∧ d'.data = req' ∧
        performAll (perform (pre ++ (bs ++ c :: rest)) (pre.length + bs.length)) as
          (setBehind set t (pre.length + bs.length) d) = .ok d') :
    Reads uriRelaxed cs req (bs ++ [c]) cs' req' := by
  intro pre rest d hsize herror hdata
  rw [List.append_assoc, List.singleton_append] at hsize ⊢
  obtain ⟨d', herror', hdata', hall⟩ := hact pre rest d hsize herror hdata
  have hstops : (machine uriRelaxed).stops a = false := beq_false_of_ne hdone
  have hrun := Machine.exec_pass (hset (pre ++ (bs ++ c :: rest))) hover hstops hpass
    (Nat.zero_le pre.length) (c :: rest) d
  have hfresh : setBehind set none pre.length d = d := rfl
  rw [hfresh] at hrun
  refine ⟨d', herror', hdata', ?_⟩
  rw [hrun, exec_step hnext hstop hall, List.length_append, List.length_append,
    List.length_singleton, Nat.add_assoc]

/-- The method and the space behind it. -/
theorem reads_method {name : List UInt8} {m : HttpMethod} {cs₁ : Nat}
    (hpass : (machine uriRelaxed).pass .mark start none name = some (cs₁, some name))
    (hnext : (machine uriRelaxed).next cs₁ 32 = some (3, [.requestMethod]))
    (hname : HttpMethod.ofChars (name ++ [32]) = m) (hm : m ≠ .invalidMethod) :
    Reads uriRelaxed start req (name ++ [32]) 3 { req with method := m } := by
  refine reads_piece (fun _ _ _ => rfl : ∀ buffer p d, perform buffer p .mark d = .ok (setMark p d))
    (fun _ _ _ => rfl) (by decide) hpass hnext (by rfl) ?_
  intro pre rest d _ herror hdata
  have hmethod : HttpMethod.ofChars (name ++ 32 :: rest) = m := by
    rw [ofChars_space name rest [], hname]
  refine ⟨(setMark (pre.length + name.length - name.length) d).setData
    { d.data with method := m }, herror, by rw [← hdata]; rfl, ?_⟩
  simp only [setBehind, performAll, perform, onRequestMethod, setMark,
    drop_marked (List.suffix_refl name), hmethod]
  rw [if_neg hm]

/-- A text that `f` keeps, from the offset `reg` to the byte behind it. -/
theorem reads_text {a use : Action} {set : Nat → HttpRequestParser → HttpRequestParser}
    (reg : HttpRequestParser → Nat) (f : HttpRequest → List UInt8 → HttpRequest)
    (hset : ∀ buffer p d, perform buffer p a d = .ok (set p d))
    (hover : ∀ i j d, set i (set j d) = set i d) (hdone : a ≠ .done)
    (hreg : ∀ p d, reg (set p d) = p)
    (hkeep : ∀ p d, (set p d).error = d.error ∧ (set p d).data = d.data)
    (huse : ∀ buffer p d, perform buffer p use d =
      d.onRequestText f (buffer.drop (reg d)) (len (reg d) p))
    {bs t : List UInt8} {c : UInt8} {cs₁ : Nat} {as : List Action}
    (hpass : (machine uriRelaxed).pass a cs none bs = some (cs₁, some t))
    (hnext : (machine uriRelaxed).next cs₁ c = some (cs', as))
    (huse_done : use ≠ .done) (has : as = [use] ∨ as = [use, .requestUri]) :
    Reads uriRelaxed cs req (bs ++ [c]) cs' (f req t) := by
  have hstop : as.any (machine uriRelaxed).stops = false := by
    have hstops : (machine uriRelaxed).stops use = false := beq_false_of_ne huse_done
    rcases has with rfl | rfl
    · rw [List.any_cons, hstops]
      rfl
    · rw [List.any_cons, hstops]
      rfl
  refine reads_piece hset hover hdone hpass hnext hstop ?_
  have hsuffix := Machine.pass_suffix hpass
  rw [Option.getD_none, List.nil_append] at hsuffix
  intro pre rest d hsize herror hdata
  simp only [List.length_append, List.length_cons] at hsize
  have hle := hsuffix.length_le
  have hstring : makeString (t ++ c :: rest) (len (pre.length + bs.length - t.length)
      (pre.length + bs.length)) = .ok t := makeString_marked (by omega) (by omega)
  obtain ⟨herror', hdata'⟩ := hkeep (pre.length + bs.length - t.length) d
  have hperform : perform (pre ++ (bs ++ c :: rest)) (pre.length + bs.length) use
      (set (pre.length + bs.length - t.length) d) =
      .ok ((set (pre.length + bs.length - t.length) d).setData (f req t)) := by
    rw [huse, hreg, drop_marked hsuffix, onRequestText, hstring, hdata', hdata]
    rfl
  refine ⟨(set (pre.length + bs.length - t.length) d).setData (f req t), herror'.trans herror,
    rfl, ?_⟩
  rcases has with rfl | rfl
  · simp only [setBehind, performAll, hperform]
  · have huri : ∀ (buffer : List UInt8) (p : Nat) (d : HttpRequestParser),
        perform buffer p .requestUri d = .ok d := fun _ _ _ => rfl
    simp only [setBehind, performAll, hperform, huri]

/-- The path, up to the byte behind it. -/
theorem reads_path {bs t : List UInt8} {c : UInt8} {cs₁ : Nat} {as : List Action}
    (hpass : (machine uriRelaxed).pass .mark cs none bs = some (cs₁, some t))
    (hnext : (machine uriRelaxed).next cs₁ c = some (cs', as))
    (has : as = [.requestPath] ∨ as = [.requestPath, .requestUri]) :
    Reads uriRelaxed cs req (bs ++ [c]) cs' { req with path := t } :=
  reads_text (fun d => d.mark) (fun req v => { req with path := v })
    (fun _ _ _ => rfl : ∀ buffer p d, perform buffer p .mark d = .ok (setMark p d))
    (fun _ _ _ => rfl) (by decide) (fun _ _ => rfl)
    (fun _ _ => ⟨rfl, rfl⟩) (fun _ _ _ => rfl) hpass hnext (by decide) has

theorem reads_query {bs t : List UInt8} {c : UInt8} {cs₁ : Nat} {as : List Action}
    (hpass : (machine uriRelaxed).pass .startQuery cs none bs = some (cs₁, some t))
    (hnext : (machine uriRelaxed).next cs₁ c = some (cs', as))
    (has : as = [.queryString] ∨ as = [.queryString, .requestUri]) :
    Reads uriRelaxed cs req (bs ++ [c]) cs' { req with query := t } :=
  reads_text (fun d => d.queryStart) (fun req v => { req with query := v })
    (fun _ _ _ => rfl : ∀ buffer p d, perform buffer p .startQuery d =
      .ok (setQueryStart p d)) (fun _ _ _ => rfl) (by decide)
    (fun _ _ => rfl) (fun _ _ => ⟨rfl, rfl⟩)
    (fun _ _ _ => rfl) hpass hnext (by decide) has

theorem reads_fragment {bs t : List UInt8} {c : UInt8} {cs₁ : Nat} {as : List Action}
    (hpass : (machine uriRelaxed).pass .mark cs none bs = some (cs₁, some t))
    (hnext : (machine uriRelaxed).next cs₁ c = some (cs', as))
    (has : as = [.fragment] ∨ as = [.fragment, .requestUri]) :
    Reads uriRelaxed cs req (bs ++ [c]) cs' { req with fragment := t } :=
  reads_text (fun d => d.mark) (fun req v => { req with fragment := v })
    (fun _ _ _ => rfl : ∀ buffer p d, perform buffer p .mark d = .ok (setMark p d))
    (fun _ _ _ => rfl) (by decide) (fun _ _ => rfl)
    (fun _ _ => ⟨rfl, rfl⟩) (fun _ _ _ => rfl) hpass hnext (by decide) has

/-- Where `mark` is set at the byte behind the path as well, the path is empty. -/
theorem reads_path_empty {bs : List UInt8} {t : Option (List UInt8)} {c : UInt8} {cs₁ : Nat}
    {as : List Action} (hpass : (machine uriRelaxed).pass .mark cs none bs = some (cs₁, t))
    (hnext : (machine uriRelaxed).next cs₁ c = some (cs', as))
    (has : as = [.mark, .requestPath] ∨ as = [.mark, .requestPath, .requestUri]) :
    Reads uriRelaxed cs req (bs ++ [c]) cs' { req with path := [] } := by
  have hstop : as.any (machine uriRelaxed).stops = false := by
    rcases has with rfl | rfl <;> rfl
  have hact : ∀ (pre rest : List UInt8) (d : HttpRequestParser),
      (pre ++ (bs ++ c :: rest)).length < 2 ^ 63 → d.error = 0 → d.data = req →
      ∃ d', d'.error = 0 ∧ d'.data = { req with path := [] } ∧
        performAll (perform (pre ++ (bs ++ c :: rest)) (pre.length + bs.length)) as
          (setBehind setMark t (pre.length + bs.length) d) = .ok d' := by
    intro pre rest d hsize herror hdata
    have hkeep : (setBehind setMark t (pre.length + bs.length) d).error = d.error ∧
        (setBehind setMark t (pre.length + bs.length) d).data = d.data := by
      cases t <;> exact ⟨rfl, rfl⟩
    generalize setBehind setMark t (pre.length + bs.length) d = d₁ at hkeep ⊢
    simp only [List.length_append] at hsize
    have hlen : len (pre.length + bs.length) (pre.length + bs.length) = 0 := by
      rw [len_of_le le_rfl (by omega), Nat.sub_self]
    have hnone : ∀ text, makeString text 0 = .ok [] := by
      intro text
      rw [makeString, if_neg (by omega), List.take_zero]
    refine ⟨(setMark (pre.length + bs.length) d₁).setData { d₁.data with path := [] },
      hkeep.1.trans herror, by rw [← hdata, ← hkeep.2]; rfl, ?_⟩
    have hmark : ∀ buffer, perform buffer (pre.length + bs.length) .mark d₁ =
        .ok (setMark (pre.length + bs.length) d₁) := fun _ => rfl
    have hpath : ∀ buffer, perform buffer (pre.length + bs.length) .requestPath
        (setMark (pre.length + bs.length) d₁) = .ok ((setMark (pre.length + bs.length) d₁).setData
          { d₁.data with path := [] }) := by
      intro buffer
      have hpos : (setMark (pre.length + bs.length) d₁).mark = pre.length + bs.length := rfl
      rw [perform, hpos, hlen, onRequestPath, onRequestText, hnone]
      rfl
    have huri : ∀ (buffer : List UInt8) (p : Nat) (d : HttpRequestParser),
        perform buffer p .requestUri d = .ok d := fun _ _ _ => rfl
    rcases has with rfl | rfl
    · rw [performAll, hmark]
      dsimp only
      rw [performAll, hpath]
      rfl
    · rw [performAll, hmark]
      dsimp only
      rw [performAll, hpath]
      dsimp only
      rw [performAll, huri]
      rfl
  exact reads_piece (fun _ _ _ => rfl : ∀ buffer p d, perform buffer p .mark d = .ok (setMark p d))
    (fun _ _ _ => rfl) (by decide) hpass hnext hstop hact

/-- A byte without actions. -/
theorem reads_byte {b : UInt8} (hnext : (machine uriRelaxed).next cs b = some (cs', [])) :
    Reads uriRelaxed cs req [b] cs' req := by
  intro pre rest d _ herror hdata
  refine ⟨d, herror, hdata, ?_⟩
  rw [List.singleton_append, exec_step hnext rfl rfl, List.length_append, List.length_singleton]

/-- The version and the end of its line. -/
theorem reads_version {text : List UInt8} {v : UInt8}
    (htext : text = chars "HTTP/1.1" ∧ v = 0x11 ∨ text = chars "HTTP/1.0" ∧ v = 0x10) :
    Reads uriRelaxed 4 req (text ++ crlf) 13 { req with version := v } := by
  have hpass : (machine uriRelaxed).pass .mark 4 none text = some (12, some text) := by
    rcases htext with ⟨rfl, _⟩ | ⟨rfl, _⟩ <;> cases uriRelaxed <;> rfl
  have hnext : (machine uriRelaxed).next 12 13 = some (17, [.httpVersion]) := by
    cases uriRelaxed <;> rfl
  have hlf : (machine uriRelaxed).next 17 10 = some (13, []) := by
    cases uriRelaxed <;> rfl
  have hact : ∀ (pre rest : List UInt8) (d : HttpRequestParser),
      (pre ++ (text ++ 13 :: rest)).length < 2 ^ 63 → d.error = 0 → d.data = req →
      ∃ d', d'.error = 0 ∧ d'.data = { req with version := v } ∧
        performAll (perform (pre ++ (text ++ 13 :: rest)) (pre.length + text.length))
          [.httpVersion] (setBehind setMark (some text) (pre.length + text.length) d) = .ok d' := by
    intro pre rest d hsize herror hdata
    simp only [List.length_append, List.length_cons] at hsize
    have hmark : (setMark (pre.length + text.length - text.length) d).mark =
        pre.length + text.length - text.length := rfl
    have hlen : len (pre.length + text.length - text.length) (pre.length + text.length) =
        text.length := by
      rw [len_of_le (by omega) (by omega)]
      omega
    have hcompare : ∀ lit, strncmp (text ++ 13 :: rest) lit text.length =
        strncmp text lit text.length := by
      intro lit
      rw [← strncmp_take, List.take_left]
    have hversion : (setMark (pre.length + text.length - text.length) d).onRequestVersion
        (text ++ 13 :: rest) text.length =
        (setMark (pre.length + text.length - text.length) d).setData { req with version := v } := by
      rw [onRequestVersion, hcompare, hcompare]
      rcases htext with ⟨rfl, rfl⟩ | ⟨rfl, rfl⟩
      · rw [if_pos (by rfl), ← hdata]
        rfl
      · rw [if_neg (by decide), if_pos (by decide), ← hdata]
        rfl
    refine ⟨(setMark (pre.length + text.length - text.length) d).setData
      { req with version := v }, herror, rfl, ?_⟩
    rw [setBehind, performAll, perform, hmark, hlen, drop_marked (List.suffix_refl text), hversion]
    rfl
  have hline := reads_piece
    (fun _ _ _ => rfl : ∀ buffer p d, perform buffer p .mark d = .ok (setMark p d))
    (fun _ _ _ => rfl) (by decide) hpass hnext rfl hact
  have hall := hline.append (reads_byte hlf)
  rw [List.append_assoc] at hall
  exact hall

/-- The name of a field and the colon behind it. -/
theorem exec_name {name : List UInt8} (hne : name ≠ []) (hname : ∀ b ∈ name, isToken b = true)
    (buffer more : List UInt8) {p : Nat} (hp : p + name.length < 2 ^ 63) (d : HttpRequestParser) :
    (machine uriRelaxed).exec (perform buffer) 13 p (name ++ 58 :: more) d =
      (machine uriRelaxed).exec (perform buffer) 15 (p + name.length + 1) more
        { d with fieldStart := p, fieldLen := name.length } := by
  have hcolon : (machine uriRelaxed).next 14 58 = some (15, [.writeField]) := by
    cases uriRelaxed <;> rfl
  have hset : ∀ p d, perform buffer p .startField d = .ok (setFieldStart p d) := fun _ _ => rfl
  have hrun := Machine.exec_pass hset (fun _ _ _ => rfl) rfl (pass_name uriRelaxed hne hname)
    (Nat.zero_le p) (58 :: more) d
  have hstart : p + name.length - name.length = p := Nat.add_sub_cancel p name.length
  have hfresh : setBehind setFieldStart none p d = d := rfl
  have hact : performAll (perform buffer (p + name.length)) [.writeField] (setFieldStart p d) =
      .ok { d with fieldStart := p, fieldLen := name.length } := by
    have hlen : len p (p + name.length) = name.length := by
      rw [len_of_le (by omega) hp]
      omega
    rw [performAll, perform, show (setFieldStart p d).fieldStart = p from rfl, hlen]
    rfl
  rw [hfresh] at hrun
  rw [hrun, setBehind, hstart, exec_step hcolon rfl hact]

/-- The value of a field from its blank on, and the carriage return behind it. -/
theorem exec_value {name value : List UInt8} (hne : name ≠ [])
    (hvalue : ∀ b ∈ value, isContent b = true) (hstart : value.head? ≠ some 32)
    {buffer more more' : List UInt8} {p : Nat} (hp : p + value.length + 1 < 2 ^ 63)
    {d : HttpRequestParser} (hlen : d.fieldLen = name.length) (hshort : name.length < 2 ^ 63)
    (hname : buffer.drop d.fieldStart = name ++ more')
    (hbuffer : buffer.drop (p + 1) = value ++ 13 :: more) :
    (machine uriRelaxed).exec (perform buffer) 15 p (32 :: (value ++ 13 :: more)) d =
      (machine uriRelaxed).exec (perform buffer) 17 (p + 1 + value.length + 1) more
        ((setMark (p + 1) d).setData (d.data.setHeader name value)) := by
  have hset : ∀ p d, perform buffer p .startValue d = .ok (setMark p d) := fun _ _ => rfl
  have hblank : (machine uriRelaxed).next 15 32 = some (15, [.startValue]) := by
    cases uriRelaxed <;> rfl
  have hend : (machine uriRelaxed).next 15 13 = some (17, [.startValue, .writeValue]) ∧
      (machine uriRelaxed).next 16 13 = some (17, [.writeValue]) := by
    cases uriRelaxed <;> decide
  have hwrite : perform buffer (p + 1 + value.length) .writeValue (setMark (p + 1) d) =
      .ok ((setMark (p + 1) d).setData (d.data.setHeader name value)) := by
    have hflen : d.fieldLen ≠ 0 := by
      rw [hlen]
      exact fun h => hne (List.length_eq_zero_iff.mp h)
    have hkey : makeString (name ++ more') name.length = .ok name := by
      rw [makeString, if_neg (by omega), List.take_left]
    have hval : makeString (value ++ 13 :: more) value.length = .ok value := by
      rw [makeString, if_neg (by omega), List.take_left]
    have hvlen : len (p + 1) (p + 1 + value.length) = value.length := by
      rw [len_of_le (by omega) (by omega), Nat.add_sub_cancel_left]
    rw [perform, show (setMark (p + 1) d).mark = p + 1 from rfl,
      show (setMark (p + 1) d).fieldStart = d.fieldStart from rfl,
      show (setMark (p + 1) d).fieldLen = d.fieldLen from rfl, hvlen, hname, hbuffer,
      onRequestHttpField, if_neg hflen, hlen, hkey, hval]
    rfl
  have hfirst : performAll (perform buffer p) [.startValue] d = .ok (setMark p d) := rfl
  rw [exec_step hblank rfl hfirst]
  cases value with
  | nil =>
    rw [List.length_nil, Nat.add_zero] at hwrite ⊢
    have hact : performAll (perform buffer (p + 1)) [.startValue, .writeValue] (setMark p d) =
        .ok ((setMark (p + 1) d).setData (d.data.setHeader name [])) := by
      rw [performAll, hset, show setMark (p + 1) (setMark p d) = setMark (p + 1) d from rfl]
      dsimp only
      rw [performAll, hwrite]
      rfl
    exact exec_step hend.1 rfl hact
  | cons b bs =>
    have hb : b ≠ 32 := fun h => hstart (by rw [h]; rfl)
    have hrun := Machine.exec_pass hset (fun _ _ _ => rfl) rfl (pass_value uriRelaxed hvalue hb)
      (Nat.zero_le (p + 1)) (13 :: more) (setMark p d)
    have hfresh : setBehind setMark none (p + 1) (setMark p d) = setMark p d := rfl
    have hmarked : setMark (p + 1 + (b :: bs).length - (b :: bs).length) (setMark p d) =
        setMark (p + 1) d := by
      rw [Nat.add_sub_cancel]
      rfl
    have hact : performAll (perform buffer (p + 1 + (b :: bs).length)) [.writeValue]
        (setMark (p + 1) d) = .ok ((setMark (p + 1) d).setData (d.data.setHeader name (b :: bs))) := by
      rw [performAll, hwrite]
      rfl
    rw [hfresh] at hrun
    rw [hrun, setBehind, hmarked, exec_step hend.2 rfl hact]

/-- A field and the end of its line. -/
theorem reads_field {name value : List UInt8} (h : IsField name value) :
    Reads uriRelaxed 13 req (HttpRequest.field name value) 13 (req.setHeader name value) := by
  have hlf : (machine uriRelaxed).next 17 10 = some (13, []) := by
    cases uriRelaxed <;> rfl
  intro pre rest d hsize herror hdata
  have htext : HttpRequest.field name value ++ rest =
      name ++ 58 :: 32 :: (value ++ 13 :: 10 :: rest) := by
    simp only [HttpRequest.field, crlf, List.append_assoc, List.cons_append, List.nil_append]
  rw [htext] at hsize ⊢
  have hlen : (HttpRequest.field name value).length = name.length + value.length + 4 := by
    simp only [HttpRequest.field, crlf, List.length_append, List.length_cons, List.length_nil]
    omega
  simp only [List.length_append, List.length_cons] at hsize
  generalize hbuffer : pre ++ (name ++ 58 :: 32 :: (value ++ 13 :: 10 :: rest)) = buffer
  have hname : buffer.drop pre.length = name ++ 58 :: 32 :: (value ++ 13 :: 10 :: rest) := by
    rw [← hbuffer, List.drop_left]
  have hvalue : buffer.drop (pre.length + name.length + 1 + 1) = value ++ 13 :: 10 :: rest := by
    have hsplit : buffer = (pre ++ (name ++ [58, 32])) ++ (value ++ 13 :: 10 :: rest) := by
      rw [← hbuffer]
      simp only [List.append_assoc, List.cons_append, List.nil_append]
    have hpos : pre.length + name.length + 1 + 1 = (pre ++ (name ++ [58, 32])).length := by
      simp only [List.length_append, List.length_cons, List.length_nil]
      omega
    rw [hpos, hsplit, List.drop_left]
  refine ⟨(setMark (pre.length + name.length + 1 + 1)
    { d with fieldStart := pre.length, fieldLen := name.length }).setData
      (d.data.setHeader name value), herror, by rw [← hdata]; rfl, ?_⟩
  rw [exec_name h.name_ne h.name_token buffer _ (by omega),
    exec_value h.name_ne h.value_content h.value_start (by omega) rfl (by omega) hname hvalue,
    exec_step hlf rfl rfl, List.length_append, hlen]
  congr 1
  omega

end Reads

end HttpRequestParser

end CxkFramework
