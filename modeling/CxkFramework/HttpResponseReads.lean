import CxkFramework.HttpResponseText
import CxkFramework.ScannerReads
import CxkFramework.Uri

/-!
# The pieces of a response head

What `HttpResponseParser` makes of a status line and of a field. The machine knows three names of
fields; the states in which one of them may still come are told apart from the one in which none
can.
-/

namespace CxkFramework

open Scanner Blocks HttpClientParser

namespace HttpClientParser

open HttpParser (isToken)

/-! ## Names of fields -/

def lower (c : UInt8) : UInt8 := if 65 ≤ c ∧ c ≤ 90 then c + 32 else c

/-- The front of a known name that a state has behind it. -/
def spelled (q : Nat) : Option (List UInt8) :=
  if 25 ≤ q ∧ q ≤ 34 then some ((chars "connection").take (q - 24))
  else if 44 ≤ q ∧ q ≤ 60 then some ((chars "transfer-encoding").take (q - 43))
  else if 101 ≤ q ∧ q ≤ 111 then some ((chars "content-length").take (q - 97))
  else none

/-- Behind `word` a state has the front of a known name, or it is the one for other names. -/
def Spells (q : Nat) (word : List UInt8) : Prop := q = 21 ∨ spelled q = some word

/-- A letter goes on with the known name or leaves it. -/
def edgeSpells (q : Nat) (e : Edge Action) : Bool :=
  !(q == 21 || (spelled q).isSome) || (e.lo == 58 && e.hi == 58) ||
    (e.actions.isEmpty && (e.next == 21 || (e.lo == e.hi &&
      (spelled q).any fun word => spelled e.next == some (word ++ [lower (UInt8.ofNat e.lo)]))))

theorem table_spells : everyEdge edgeSpells 0 table = true := by rfl

/-- Every state of a name has an edge for each character of a token. -/
theorem table_token : ((List.range 112).all fun q => !(q == 21 || (spelled q).isSome) ||
    (token 21 []).all fun e => (table.getD q []).any fun e' =>
      Nat.ble e'.lo e.lo && Nat.ble e.hi e'.hi) = true := by rfl

theorem isToken_has {b : UInt8} (h : isToken b = true) :
    (token 21 []).any (fun e => e.has b) = true ∧ b.toNat ≠ 58 := by
  have hall : ∀ i : Fin 256, isToken (UInt8.ofNat i) = true →
      (token 21 []).any (fun e => e.has (UInt8.ofNat i)) = true ∧ (UInt8.ofNat i).toNat ≠ 58 := by
    set_option maxRecDepth 1000 in decide
  have hb := hall ⟨b.toNat, b.toNat_lt⟩
  simp only [UInt8.ofNat_toNat] at hb
  exact hb h

theorem lt_of_spelled {q : Nat} (h : q = 21 ∨ (spelled q).isSome = true) : q < 112 := by
  cases h with
  | inl h => omega
  | inr h =>
    by_contra hge
    rw [spelled, if_neg (by omega), if_neg (by omega), if_neg (by omega)] at h
    cases h

theorem next_name {q : Nat} {word : List UInt8} {b : UInt8} (h : Spells q word)
    (hb : isToken b = true) :
    ∃ q', machine.next q b = some (q', []) ∧ Spells q' (word ++ [lower b]) := by
  have hin : q = 21 ∨ (spelled q).isSome = true := h.imp_right fun hword => by rw [hword]; rfl
  have hname : (q == 21 || (spelled q).isSome) = true := by
    rwa [Bool.or_eq_true, beq_iff_eq]
  obtain ⟨hhas, hcolon⟩ := isToken_has hb
  have hsome : (machine.next q b).isSome = true := by
    have hrow := List.all_eq_true.mp table_token q (List.mem_range.mpr (lt_of_spelled hin))
    rw [hname, Bool.not_true, Bool.false_or] at hrow
    obtain ⟨e, he, hb⟩ := List.any_eq_true.mp hhas
    obtain ⟨e', he', hrange⟩ := List.any_eq_true.mp (List.all_eq_true.mp hrow e he)
    simp only [Bool.and_eq_true, Nat.ble_eq] at hrange
    simp only [Edge.has, Bool.and_eq_true, decide_eq_true_eq] at hb
    have hfind : ((table.getD q []).find? fun e => e.has b).isSome = true := by
      rw [List.find?_isSome]
      refine ⟨e', he', ?_⟩
      simp only [Edge.has, Bool.and_eq_true, decide_eq_true_eq]
      omega
    exact (Option.isSome_map).trans hfind
  obtain ⟨⟨q', as⟩, hnext⟩ := Option.isSome_iff_exists.mp hsome
  obtain ⟨e, rfl, rfl, hlo, hhi, hcheck⟩ := next_of_table table_spells hnext
  have hnot : ¬(e.lo = 58 ∧ e.hi = 58) := by omega
  simp only [edgeSpells, hname, Bool.not_true, Bool.false_or, Bool.or_eq_true, Bool.and_eq_true,
    beq_iff_eq, hnot, false_or, List.isEmpty_iff] at hcheck
  obtain ⟨hactions, hnext'⟩ := hcheck
  refine ⟨e.next, by rw [hnext, hactions], ?_⟩
  cases hnext' with
  | inl hother => exact .inl hother
  | inr hknown =>
    obtain ⟨hone, hany⟩ := hknown
    cases h with
    | inl hother =>
      rw [hother] at hany
      cases hany
    | inr hword =>
      rw [hword, Option.any_some, beq_iff_eq] at hany
      have hlow : UInt8.ofNat e.lo = b := by
        rw [show e.lo = b.toNat by omega, UInt8.ofNat_toNat]
      rw [hlow] at hany
      exact .inr hany

theorem glide_name {q : Nat} {word name : List UInt8} (h : Spells q word)
    (hname : ∀ b ∈ name, isToken b = true) :
    ∃ q', machine.glide q name = some q' ∧ Spells q' (word ++ name.map lower) := by
  induction name generalizing q word with
  | nil => exact ⟨q, rfl, by rwa [List.map_nil, List.append_nil]⟩
  | cons b name ih =>
    obtain ⟨q₁, hnext, hspells⟩ := next_name h (hname b List.mem_cons_self)
    obtain ⟨q', hglide, hspells'⟩ := ih hspells fun b' hb' => hname b' (List.mem_cons_of_mem b hb')
    refine ⟨q', (Machine.glide_cons_eq name hnext).trans hglide, ?_⟩
    rwa [List.append_assoc, List.singleton_append] at hspells'

/-- The names that the machine knows. -/
def isKnown (word : List UInt8) : Bool :=
  word == chars "connection" || word == chars "transfer-encoding" || word == chars "content-length"

/-- The colon behind another name. -/
theorem next_colon {q : Nat} {word : List UInt8} (h : Spells q word)
    (hword : isKnown word = false) : machine.next q 58 = some (22, [.writeField]) := by
  have hall : ∀ q : Fin 112, q.val = 21 ∨ (spelled q).any (fun word => !isKnown word) = true →
      machine.next q 58 = some (22, [.writeField]) := by
    decide
  have hin : q = 21 ∨ (spelled q).any (fun word => !isKnown word) = true := by
    refine h.imp_right fun hspelled => ?_
    rw [hspelled, Option.any_some, hword]
    rfl
  have hlt : q < 112 := by
    refine lt_of_spelled (hin.imp_right fun hany => ?_)
    cases hspelled : spelled q with
    | none =>
      rw [hspelled] at hany
      cases hany
    | some word' => rfl
  exact hall ⟨q, hlt⟩ hin

/-- What is done on the first byte of a line: a line in front may have closed the connection. -/
def opening (q : Nat) : List Action := if q = 43 then [.writeConnectionClose] else []

/-- Where a line starts. -/
def Fresh (q : Nat) : Prop := q = 20 ∨ q = 43

theorem next_first {q : Nat} (hq : Fresh q) {b : UInt8} (hb : isToken b = true) :
    ∃ q', machine.next q b = some (q', opening q ++ [.startField]) ∧ Spells q' [lower b] := by
  have hall : ∀ i : Fin 256, isToken (UInt8.ofNat i) = true →
      (machine.next 20 (UInt8.ofNat i)).any (fun r => r.2 == [.startField] &&
        (r.1 == 21 || spelled r.1 == some [lower (UInt8.ofNat i)])) = true ∧
      (machine.next 43 (UInt8.ofNat i)).any (fun r =>
        r.2 == [.writeConnectionClose, .startField] &&
        (r.1 == 21 || spelled r.1 == some [lower (UInt8.ofNat i)])) = true := by
    set_option maxRecDepth 1000 in decide
  have hb := hall ⟨b.toNat, b.toNat_lt⟩
  simp only [UInt8.ofNat_toNat] at hb
  obtain ⟨hfirst, hclosed⟩ := hb ‹_›
  have hany : (machine.next q b).any (fun r => r.2 == opening q ++ [.startField] &&
      (r.1 == 21 || spelled r.1 == some [lower b])) = true := by
    cases hq with
    | inl hq => subst hq; exact hfirst
    | inr hq => subst hq; exact hclosed
  cases hnext : machine.next q b with
  | none =>
    rw [hnext] at hany
    cases hany
  | some r =>
    rw [hnext, Option.any_some, Bool.and_eq_true, Bool.or_eq_true, beq_iff_eq, beq_iff_eq,
      beq_iff_eq] at hany
    exact ⟨r.1, by rw [← hany.1], hany.2⟩

end HttpClientParser

namespace HttpResponseParser

open HttpParser (isToken)

open HttpRequestParser (len len_of_le)

/-! ## Fields -/

/-- The response so far, and that no chunks are announced. -/
structure Holds (error : Nat) (rsp : HttpResponse) (d : HttpResponseParser) : Prop where
  error_eq : d.error = error
  chunked_eq : d.chunked = false
  data_eq : d.data = rsp

/-- A name is complete, whatever was read behind it. -/
structure Named (error : Nat) (rsp : HttpResponse) (name front : List UInt8)
    (d : HttpResponseParser) : Prop where
  holds : d.Holds error rsp
  since : ∃ more, Since d.fieldStart (name ++ more) front
  fieldLen_eq : d.fieldLen = name.length

/-- Behind a name, a value that has begun. -/
structure Valued (error : Nat) (rsp : HttpResponse) (name value front : List UInt8)
    (d : HttpResponseParser) : Prop where
  named : d.Named error rsp name front
  since : Since d.mark value front

section Fields

variable {error : Nat} {rsp : HttpResponse} {name value front : List UInt8}
  {d : HttpResponseParser} {q q' : Nat} {b : UInt8}

theorem Named.append (h : d.Named error rsp name front) (more : List UInt8) :
    d.Named error rsp name (front ++ more) := by
  obtain ⟨more', hsince⟩ := h.since
  have hlonger := hsince.append more
  rw [List.append_assoc] at hlonger
  exact ⟨h.holds, ⟨_, hlonger⟩, h.fieldLen_eq⟩

theorem Valued.append (h : d.Valued error rsp name value front) (more : List UInt8) :
    d.Valued error rsp name (value ++ more) (front ++ more) :=
  ⟨h.named.append more, h.since.append more⟩

theorem stringAt_append (text rest : List UInt8) (h : text.length < 2 ^ 63) :
    stringAt (text ++ rest) text.length = .ok text := by
  rw [stringAt, if_neg (by omega), if_neg (by rw [List.length_append]; omega), List.take_left]

/-- The length of what was read since an offset. -/
theorem len_of_since {offset : Nat} {text : List UInt8} (h : Since offset text front)
    (hsize : front.length < 2 ^ 63) : len offset front.length = text.length := by
  have hlength := h.length_eq
  rw [len_of_le (by omega) hsize]
  omega

/-- A field is put into the map when its value ends. -/
theorem perform_writeValue (h : d.Valued error rsp name value front) (hname : name ≠ [])
    (hsize : front.length < 2 ^ 63) (rest : List UInt8) :
    ∃ d', perform (front ++ rest) front.length .writeValue d = .ok d' ∧
      d'.Holds error (rsp.setHeader name value) := by
  obtain ⟨more, hsince⟩ := h.named.since
  have hlength := hsince.length_eq
  have hvlength := h.since.length_eq
  rw [List.length_append] at hlength
  have hkey : stringAt ((front ++ rest).drop d.fieldStart) name.length = .ok name := by
    rw [hsince.drop, List.append_assoc]
    exact stringAt_append name _ (by omega)
  have hval : stringAt ((front ++ rest).drop d.mark) value.length = .ok value := by
    rw [h.since.drop]
    exact stringAt_append value _ (by omega)
  have hne : d.fieldLen ≠ 0 := by
    rw [h.named.fieldLen_eq]
    exact fun hnil => hname (List.length_eq_zero_iff.mp hnil)
  refine ⟨d.setData (d.data.setHeader name value), ?_, h.named.holds.error_eq,
    h.named.holds.chunked_eq, by rw [← h.named.holds.data_eq]; rfl⟩
  rw [perform, onResponseHttpField, if_neg hne, len_of_since h.since hsize, h.named.fieldLen_eq,
    hkey, hval]
  rfl

/-- A name, its colon and the blank behind it. -/
theorem reads_name {q₁ q₂ q₃ : Nat} {bs : List UInt8} (hq : Fresh q)
    (hfirst : machine.next q b = some (q₁, opening q ++ [.startField]))
    (hglide : machine.glide q₁ bs = some q₂)
    (hcolon : machine.next q₂ 58 = some (q₃, [.writeField]))
    (hblank : machine.next q₃ 32 = some (q₃, [.startValue])) :
    machine.Reads perform (2 ^ 63) q (fun _ => Holds error rsp) (b :: bs ++ [58, 32]) q₃
      (fun front => Named error rsp (b :: bs) front) := by
  have hbegin : machine.Reads perform (2 ^ 63) q (fun _ => Holds error rsp) [b] q₁
      (fun front d => d.Holds error rsp ∧ Since d.fieldStart [b] front) := by
    refine Machine.reads_byte hfirst ?_ ?_
    · cases hq with
      | inl hq => subst hq; rfl
      | inr hq => subst hq; rfl
    · intro front rest d _ hd
      refine ⟨{ d with fieldStart := front.length },
        ⟨⟨hd.error_eq, hd.chunked_eq, hd.data_eq⟩, (since_nil front).append [b]⟩, ?_⟩
      cases hq with
      | inl hq => subst hq; rfl
      | inr hq => subst hq; rfl
  have hrest : machine.Reads perform (2 ^ 63) q₁
      (fun front d => d.Holds error rsp ∧ Since d.fieldStart [b] front) bs q₂
      (fun front d => d.Holds error rsp ∧ Since d.fieldStart (b :: bs) front) :=
    Machine.reads_glide hglide fun front d hd => ⟨hd.1, hd.2.append bs⟩
  have hend : machine.Reads perform (2 ^ 63) q₂
      (fun front d => d.Holds error rsp ∧ Since d.fieldStart (b :: bs) front) [58] q₃
      (fun front => Named error rsp (b :: bs) front) := by
    refine Machine.reads_byte hcolon rfl ?_
    intro front rest d hsize hd
    rw [List.length_append] at hsize
    refine ⟨{ d with fieldLen := len d.fieldStart front.length },
      ⟨⟨hd.1.error_eq, hd.1.chunked_eq, hd.1.data_eq⟩, ⟨[58], hd.2.append [58]⟩,
        len_of_since hd.2 (by omega)⟩, rfl⟩
  have hspace : machine.Reads perform (2 ^ 63) q₃ (fun front => Named error rsp (b :: bs) front)
      [32] q₃ (fun front => Named error rsp (b :: bs) front) := by
    refine Machine.reads_byte hblank rfl ?_
    intro front rest d _ hd
    have hd' := hd.append [32]
    exact ⟨{ d with mark := front.length }, ⟨⟨hd.holds.error_eq, hd.holds.chunked_eq,
      hd.holds.data_eq⟩, hd'.since, hd'.fieldLen_eq⟩, rfl⟩
  have hall := ((hbegin.append hrest).append hend).append hspace
  rwa [List.append_assoc, List.singleton_append] at hall

/-- A value and the end of its line. -/
theorem reads_value {q₁ q₂ q₃ : Nat} {bs : List UInt8} {as : List Action} (hname : name ≠ [])
    (hfirst : machine.next q b = some (q₁, [.startValue]))
    (hglide : machine.glide q₁ bs = some q₂) (hcr : machine.next q₂ 13 = some (q₃, as))
    (has : as = [.writeValue] ∨ as = [.writeContentLen, .writeValue])
    (hlf : machine.next q₃ 10 = some (q', [])) :
    machine.Reads perform (2 ^ 63) q (fun front => Named error rsp name front) (b :: bs ++ crlf) q'
      (fun _ => Holds error (rsp.setHeader name (b :: bs))) := by
  have hbegin : machine.Reads perform (2 ^ 63) q (fun front => Named error rsp name front) [b] q₁
      (fun front => Valued error rsp name [b] front) := by
    refine Machine.reads_byte hfirst rfl ?_
    intro front rest d _ hd
    have hd' := hd.append [b]
    exact ⟨{ d with mark := front.length }, ⟨⟨⟨hd.holds.error_eq, hd.holds.chunked_eq,
      hd.holds.data_eq⟩, hd'.since, hd'.fieldLen_eq⟩, (since_nil front).append [b]⟩, rfl⟩
  have hrest : machine.Reads perform (2 ^ 63) q₁ (fun front => Valued error rsp name [b] front) bs
      q₂ (fun front => Valued error rsp name (b :: bs) front) :=
    Machine.reads_glide hglide fun front d hd => hd.append bs
  have hend : machine.Reads perform (2 ^ 63) q₂ (fun front => Valued error rsp name (b :: bs) front)
      [13] q₃ (fun _ => Holds error (rsp.setHeader name (b :: bs))) := by
    refine Machine.reads_byte hcr ?_ ?_
    · rcases has with rfl | rfl <;> rfl
    · intro front rest d hsize hd
      rw [List.length_append] at hsize
      rcases has with rfl | rfl
      · obtain ⟨d', hwrite, hd'⟩ := perform_writeValue hd hname (by omega) (13 :: rest)
        refine ⟨d', hd', ?_⟩
        rw [performAll, hwrite]
        rfl
      · generalize hcounted : ({ d with contentLen := toInt (strtol 10
          ((front ++ 13 :: rest).drop d.mark)) } : HttpResponseParser) = counted
        have hvalued : counted.Valued error rsp name (b :: bs) front := by
          subst hcounted
          exact ⟨⟨⟨hd.named.holds.error_eq, hd.named.holds.chunked_eq, hd.named.holds.data_eq⟩,
            hd.named.since, hd.named.fieldLen_eq⟩, hd.since⟩
        have hlen :
            perform (front ++ 13 :: rest) front.length .writeContentLen d = .ok counted := by
          rw [← hcounted]
          rfl
        obtain ⟨d', hwrite, hd'⟩ := perform_writeValue hvalued hname (by omega) (13 :: rest)
        refine ⟨d', hd', ?_⟩
        rw [performAll, hlen]
        dsimp only
        rw [performAll, hwrite]
        rfl
  have hline : machine.Reads perform (2 ^ 63) q₃
      (fun _ => Holds error (rsp.setHeader name (b :: bs))) [10] q'
      (fun _ => Holds error (rsp.setHeader name (b :: bs))) :=
    Machine.reads_glide (Machine.glide_cons_eq [] hlf) fun front d hd => hd
  have hall := ((hbegin.append hrest).append hend).append hline
  rwa [List.append_assoc _ [13] [10]] at hall

/-- A field of another name that the parser takes apart again: its value is one line and does not
start with a blank. -/
structure IsLine (name value : List UInt8) : Prop where
  name_ne : name ≠ []
  name_token : ∀ b ∈ name, isToken b = true
  name_other : isKnown (name.map lower) = false
  value_line : ∀ b ∈ value, b ≠ 10 ∧ b ≠ 13
  value_start : ∀ b ∈ value.head?, b ∉ [9, 11, 12, 32]

theorem next_value (b : UInt8) (h : b ≠ 10 ∧ b ≠ 13) :
    (b ∉ [9, 11, 12, 32] → machine.next 22 b = some (23, [.startValue])) ∧
      machine.next 23 b = some (23, []) := by
  have hall : ∀ i : Fin 256, UInt8.ofNat i ≠ 10 ∧ UInt8.ofNat i ≠ 13 →
      (UInt8.ofNat i ∉ [9, 11, 12, 32] →
        machine.next 22 (UInt8.ofNat i) = some (23, [.startValue])) ∧
      machine.next 23 (UInt8.ofNat i) = some (23, []) := by
    set_option maxRecDepth 1000 in decide
  have hb := hall ⟨b.toNat, b.toNat_lt⟩
  simp only [UInt8.ofNat_toNat] at hb
  exact hb h

/-- A word that leads from a state back to it. -/
theorem glide_stay {word : List UInt8} (h : ∀ b ∈ word, machine.next q b = some (q, [])) :
    machine.glide q word = some q := by
  induction word with
  | nil => rfl
  | cons b word ih =>
    rw [Machine.glide_cons_eq word (h b List.mem_cons_self)]
    exact ih fun b' hb' => h b' (List.mem_cons_of_mem b hb')

/-- Nothing comes between the blank and the end of the line. -/
theorem reads_value_empty (hname : name ≠ []) :
    machine.Reads perform (2 ^ 63) 22 (fun front => Named error rsp name front) crlf 20
      (fun _ => Holds error (rsp.setHeader name [])) := by
  have hend : machine.Reads perform (2 ^ 63) 22 (fun front => Named error rsp name front) [13] 24
      (fun _ => Holds error (rsp.setHeader name [])) := by
    have hnext : machine.next 22 13 = some (24, [.startValue, .writeValue]) := rfl
    refine Machine.reads_byte hnext rfl ?_
    intro front rest d hsize hd
    rw [List.length_append] at hsize
    have hvalued : Valued error rsp name [] front { d with mark := front.length } :=
      ⟨⟨⟨hd.holds.error_eq, hd.holds.chunked_eq, hd.holds.data_eq⟩, hd.since, hd.fieldLen_eq⟩,
        since_nil front⟩
    obtain ⟨d', hwrite, hd'⟩ := perform_writeValue hvalued hname (by omega) (13 :: rest)
    refine ⟨d', hd', ?_⟩
    have hmark : perform (front ++ 13 :: rest) front.length .startValue d =
        .ok { d with mark := front.length } := rfl
    rw [performAll, hmark]
    dsimp only
    rw [performAll, hwrite]
    rfl
  exact hend.append (Machine.reads_glide (Machine.glide_cons_eq [] rfl) fun front d hd => hd)

/-- A field of another name. -/
theorem reads_field (hq : Fresh q) (h : IsLine name value) :
    machine.Reads perform (2 ^ 63) q (fun _ => Holds error rsp) (HttpRequest.field name value) 20
      (fun _ => Holds error (rsp.setHeader name value)) := by
  obtain ⟨b, bs, rfl⟩ := List.exists_cons_of_ne_nil h.name_ne
  obtain ⟨q₁, hfirst, hspells⟩ := next_first hq (h.name_token b List.mem_cons_self)
  obtain ⟨q₂, hglide, hspells'⟩ := glide_name hspells fun b' hb' =>
    h.name_token b' (List.mem_cons_of_mem b hb')
  have hline : machine.Reads perform (2 ^ 63) q (fun _ => Holds error rsp) (b :: bs ++ [58, 32]) 22
      (fun front => Named error rsp (b :: bs) front) :=
    reads_name hq hfirst hglide (next_colon hspells' h.name_other) rfl
  have hvalue : machine.Reads perform (2 ^ 63) 22 (fun front => Named error rsp (b :: bs) front)
      (value ++ crlf) 20 (fun _ => Holds error (rsp.setHeader (b :: bs) value)) := by
    cases value with
    | nil => exact reads_value_empty h.name_ne
    | cons c cs =>
      have hc := next_value c (h.value_line c List.mem_cons_self)
      have hstay : machine.glide 23 cs = some 23 := glide_stay fun c' hc' =>
        (next_value c' (h.value_line c' (List.mem_cons_of_mem c hc'))).2
      exact reads_value h.name_ne (hc.1 (h.value_start c rfl)) hstay rfl (.inl rfl) rfl
  have hall := hline.append hvalue
  rwa [List.append_assoc] at hall

/-- The line that `dump` adds for the connection. -/
theorem reads_connection (hq : Fresh q) (close : Bool) :
    ∃ q', Fresh q' ∧ machine.Reads perform (2 ^ 63) q (fun _ => Holds error rsp)
      (HttpRequest.field (chars "connection") (if close then chars "close" else chars "keep-alive"))
      q' (fun _ => Holds error (rsp.setHeader (chars "connection")
        (if close then chars "close" else chars "keep-alive"))) := by
  have hfirst : machine.next q 99 = some (25, opening q ++ [.startField]) := by
    cases hq with
    | inl hq => subst hq; rfl
    | inr hq => subst hq; rfl
  have hname : machine.Reads perform (2 ^ 63) q (fun _ => Holds error rsp)
      (chars "connection" ++ [58, 32]) 35
      (fun front => Named error rsp (chars "connection") front) :=
    reads_name hq hfirst (by rfl : machine.glide 25 (chars "onnection") = some 34) rfl rfl
  have hne : chars "connection" ≠ [] := by decide
  cases close with
  | true =>
    have hall := hname.append (reads_value hne (by rfl : machine.next 35 99 = _)
      (by rfl : machine.glide 96 (chars "lose") = some 100) rfl (.inl rfl) rfl)
    rw [List.append_assoc] at hall
    exact ⟨43, .inr rfl, hall⟩
  | false =>
    have hall := hname.append (reads_value hne (by rfl : machine.next 35 107 = _)
      (by rfl : machine.glide 23 (chars "eep-alive") = some 23) rfl (.inl rfl) rfl)
    rw [List.append_assoc] at hall
    exact ⟨20, .inl rfl, hall⟩

theorem next_digit {n : Nat} {b : UInt8} (hb : b ∈ decimal n) :
    machine.next 112 b = some (119, [.startValue]) ∧ machine.next 119 b = some (119, []) ∧
      machine.next 16 b = some (17, [.mark]) ∧ machine.next 17 b = some (17, []) :=
  of_mem_decimal (P := fun b => machine.next 112 b = some (119, [.startValue]) ∧
    machine.next 119 b = some (119, []) ∧ machine.next 16 b = some (17, [.mark]) ∧
    machine.next 17 b = some (17, [])) (by decide) hb

/-- The line that `dump` adds for a body. -/
theorem reads_length (hq : Fresh q) (n : Nat) :
    machine.Reads perform (2 ^ 63) q (fun _ => Holds error rsp)
      (HttpRequest.field (chars "content-length") (decimal n)) 20
      (fun _ => Holds error (rsp.setHeader (chars "content-length") (decimal n))) := by
  have hfirst : machine.next q 99 = some (25, opening q ++ [.startField]) := by
    cases hq with
    | inl hq => subst hq; rfl
    | inr hq => subst hq; rfl
  have hname : machine.Reads perform (2 ^ 63) q (fun _ => Holds error rsp)
      (chars "content-length" ++ [58, 32]) 112
      (fun front => Named error rsp (chars "content-length") front) :=
    reads_name hq hfirst (by rfl : machine.glide 25 (chars "ontent-length") = some 111) rfl rfl
  obtain ⟨c, cs, hdigits⟩ := List.exists_cons_of_ne_nil (decimal_ne_nil n)
  have hstay : machine.glide 119 cs = some 119 := glide_stay fun c' hc' =>
    (next_digit (n := n) (by rw [hdigits]; exact List.mem_cons_of_mem c hc')).2.1
  have hvalue : machine.Reads perform (2 ^ 63) 112
      (fun front => Named error rsp (chars "content-length") front) (c :: cs ++ crlf) 20
      (fun _ => Holds error (rsp.setHeader (chars "content-length") (c :: cs))) :=
    reads_value (by decide) (next_digit (n := n) (by rw [hdigits]; exact List.mem_cons_self)).1
      hstay rfl (.inr rfl) rfl
  have hall := hname.append hvalue
  rw [← hdigits, List.append_assoc] at hall
  exact hall

end Fields

/-! ## The status line -/

section StatusLine

variable {error : Nat} {rsp : HttpResponse} {q q' : Nat}

/-- What is marked on one byte and used on another one. -/
theorem reads_marked {q₁ q₂ : Nat} {b c : UInt8} {bs : List UInt8} {use : Action}
    {rsp' : HttpResponse} (hfirst : machine.next q b = some (q₁, [.mark]))
    (hglide : machine.glide q₁ bs = some q₂) (hlast : machine.next q₂ c = some (q', [use]))
    (hdone : use ≠ .done)
    (huse : ∀ (front rest : List UInt8) (d : HttpResponseParser), front.length < 2 ^ 63 →
      d.Holds error rsp → Since d.mark (b :: bs) front →
      ∃ d', d'.Holds error rsp' ∧ perform (front ++ c :: rest) front.length use d = .ok d') :
    machine.Reads perform (2 ^ 63) q (fun _ => Holds error rsp) (b :: bs ++ [c]) q'
      (fun _ => Holds error rsp') := by
  have hbegin : machine.Reads perform (2 ^ 63) q (fun _ => Holds error rsp) [b] q₁
      (fun front d => d.Holds error rsp ∧ Since d.mark [b] front) := by
    refine Machine.reads_byte hfirst rfl ?_
    intro front rest d _ hd
    exact ⟨{ d with mark := front.length }, ⟨⟨hd.error_eq, hd.chunked_eq, hd.data_eq⟩,
      (since_nil front).append [b]⟩, rfl⟩
  have hrest : machine.Reads perform (2 ^ 63) q₁
      (fun front d => d.Holds error rsp ∧ Since d.mark [b] front) bs q₂
      (fun front d => d.Holds error rsp ∧ Since d.mark (b :: bs) front) :=
    Machine.reads_glide hglide fun front d hd => ⟨hd.1, hd.2.append bs⟩
  have hend : machine.Reads perform (2 ^ 63) q₂
      (fun front d => d.Holds error rsp ∧ Since d.mark (b :: bs) front) [c] q'
      (fun _ => Holds error rsp') := by
    refine Machine.reads_byte hlast ?_ ?_
    · have hstops : machine.stops use = false := beq_false_of_ne hdone
      rw [List.any_cons, hstops]
      rfl
    · intro front rest d hsize hd
      rw [List.length_append] at hsize
      obtain ⟨d', hd', hperform⟩ := huse front rest d (by omega) hd.1 hd.2
      exact ⟨d', hd', by rw [performAll, hperform]; rfl⟩
  exact (hbegin.append hrest).append hend

/-- The version and the blank behind it. -/
theorem reads_version {text : List UInt8} {v : UInt8}
    (htext : text = chars "HTTP/1.1" ∧ v = 0x11 ∨ text = chars "HTTP/1.0" ∧ v = 0x10) :
    machine.Reads perform (2 ^ 63) start (fun _ => Holds error rsp) (text ++ [32]) 16
      (fun _ => Holds error { rsp with version := v }) := by
  have hfirst : machine.next start 72 = some (8, [.mark]) := rfl
  have hlast : machine.next 15 32 = some (16, [.httpVersion]) := rfl
  obtain ⟨bs, rfl, hglide⟩ : ∃ bs, text = 72 :: bs ∧ machine.glide 8 bs = some 15 := by
    rcases htext with ⟨rfl, -⟩ | ⟨rfl, -⟩ <;> exact ⟨_, rfl, by rfl⟩
  refine reads_marked hfirst hglide hlast (by decide) ?_
  intro front rest d hsize hd hsince
  have hcompare : ∀ lit, strncmp (72 :: bs ++ 32 :: rest) lit (72 :: bs).length =
      strncmp (72 :: bs) lit (72 :: bs).length := by
    intro lit
    rw [← strncmp_take, List.take_left]
  refine ⟨d.setData { rsp with version := v }, ⟨hd.error_eq, hd.chunked_eq, rfl⟩, ?_⟩
  rw [perform, len_of_since hsince hsize, hsince.drop, onResponseVersion, hcompare, hcompare,
    hd.data_eq]
  rcases htext with ⟨htext, rfl⟩ | ⟨htext, rfl⟩
  · rw [htext, if_pos (by rfl)]
  · rw [htext, if_neg (by decide), if_pos (by rfl)]

theorem ofDigits_decimal (n : Nat) : ofDigits 10 (decimal n) = n := by
  have hdigits : ∀ (l : List UInt8) (k : Nat), (∀ b ∈ l, 48 ≤ b.toNat ∧ b.toNat ≤ 57) →
      l.foldl (fun n c => n * 10 + digitValue c) k =
        l.foldl (fun n b => 10 * n + (b.toNat - 48)) k := by
    intro l
    induction l with
    | nil => intro k _; rfl
    | cons b l ih =>
      intro k hl
      have hvalue : digitValue b = b.toNat - 48 := by
        rw [digitValue, if_pos]
        rw [UInt8.le_iff_toNat_le, UInt8.le_iff_toNat_le]
        exact hl b List.mem_cons_self
      rw [List.foldl_cons, List.foldl_cons, hvalue, Nat.mul_comm k 10]
      exact ih _ fun b' hb' => hl b' (List.mem_cons_of_mem b hb')
  rw [ofDigits, hdigits _ _ fun b hb => decimal_range hb]
  exact Uri.number_decimal n

theorem isDigit_of_decimal {n : Nat} {b : UInt8} (hb : b ∈ decimal n) : isDigit 10 b = true :=
  of_mem_decimal (P := fun b => isDigit 10 b = true) (by decide) hb

/-- A status of any `int` is printed and comes back. -/
theorem toInt_strtol_status {s : Int} (hlow : -2 ^ 31 ≤ s) (hhigh : s < 2 ^ 31)
    (rest : List UInt8) :
    toInt (strtol 10 (decimal (s % 2 ^ 32).toNat ++ 32 :: rest)) = s := by
  have hblank : isDigit 10 32 = false := by decide
  rw [strtol_append hblank (fun _ hb => isDigit_of_decimal hb), ofDigits_decimal, toInt]
  have hmod : ((s % 2 ^ 32).toNat : Int) = s % 2 ^ 32 := Int.toNat_of_nonneg (by omega)
  have hsize : (2 : Int) ^ 32 = ((2 ^ 32 : Nat) : Int) := by decide
  rw [hmod, min_eq_left (by omega), hsize, Int.emod_bmod]
  exact Int.bmod_eq_of_le (by omega) (by omega)

theorem reads_status {s : Int} (hlow : -2 ^ 31 ≤ s) (hhigh : s < 2 ^ 31) :
    machine.Reads perform (2 ^ 63) 16 (fun _ => Holds error rsp)
      (decimal (s % 2 ^ 32).toNat ++ [32]) 18 (fun _ => Holds error { rsp with status := s }) := by
  have hvalue := toInt_strtol_status hlow hhigh
  have hdigit := fun b => @next_digit (s % 2 ^ 32).toNat b
  obtain ⟨c, cs, hcs⟩ := List.exists_cons_of_ne_nil (decimal_ne_nil (s % 2 ^ 32).toNat)
  rw [hcs] at hvalue hdigit ⊢
  have hstay : machine.glide 17 cs = some 17 :=
    glide_stay fun c' hc' => (hdigit c' (List.mem_cons_of_mem c hc')).2.2.2
  refine reads_marked (hdigit c List.mem_cons_self).2.2.1 hstay rfl (by decide) ?_
  intro front rest d _ hd hsince
  refine ⟨d.setData { rsp with status := s }, ⟨hd.error_eq, hd.chunked_eq, rfl⟩, ?_⟩
  rw [perform, hsince.drop, onResponseStatus, hvalue, hd.data_eq]

/-- A reason that makes one line. -/
structure IsReason (reason : List UInt8) : Prop where
  reason_ne : reason ≠ []
  line : ∀ b ∈ reason, b ≠ 10 ∧ b ≠ 13

theorem next_reason (b : UInt8) (h : b ≠ 10 ∧ b ≠ 13) :
    machine.next 18 b = some (19, [.mark]) ∧ machine.next 19 b = some (19, []) := by
  have hall : ∀ i : Fin 256, UInt8.ofNat i ≠ 10 ∧ UInt8.ofNat i ≠ 13 →
      machine.next 18 (UInt8.ofNat i) = some (19, [.mark]) ∧
        machine.next 19 (UInt8.ofNat i) = some (19, []) := by
    set_option maxRecDepth 1000 in decide
  have hb := hall ⟨b.toNat, b.toNat_lt⟩
  simp only [UInt8.ofNat_toNat] at hb
  exact hb h

theorem reads_reason {reason : List UInt8} (h : IsReason reason) :
    machine.Reads perform (2 ^ 63) 18 (fun _ => Holds error rsp) (reason ++ crlf) 20
      (fun _ => Holds error { rsp with reason := reason }) := by
  obtain ⟨b, bs, rfl⟩ := List.exists_cons_of_ne_nil h.reason_ne
  have hstay : machine.glide 19 bs = some 19 := glide_stay fun b' hb' =>
    (next_reason b' (h.line b' (List.mem_cons_of_mem b hb'))).2
  have hline : machine.Reads perform (2 ^ 63) 18 (fun _ => Holds error rsp) (b :: bs ++ [13]) 24
      (fun _ => Holds error { rsp with reason := b :: bs }) := by
    refine reads_marked (next_reason b (h.line b List.mem_cons_self)).1 hstay rfl (by decide) ?_
    intro front rest d hsize hd hsince
    refine ⟨d.setData { rsp with reason := b :: bs }, ⟨hd.error_eq, hd.chunked_eq, rfl⟩, ?_⟩
    have hlength := hsince.length_eq
    rw [perform, len_of_since hsince hsize, hsince.drop, onResponseReason,
      stringAt_append _ _ (by omega), hd.data_eq]
    rfl
  have hend : machine.Reads perform (2 ^ 63) 24
      (fun _ => Holds error { rsp with reason := b :: bs }) [10] 20
      (fun _ => Holds error { rsp with reason := b :: bs }) :=
    Machine.reads_glide (Machine.glide_cons_eq [] rfl) fun front d hd => hd
  have hall := hline.append hend
  rwa [List.append_assoc _ [13] [10]] at hall

/-- The empty line behind the fields. -/
theorem head_of_reads {text : List UInt8} (hq : Fresh q)
    (h : machine.Reads perform (2 ^ 63) start (fun _ => Holds error .init) text q
      (fun _ => Holds error rsp)) (hfirst : text.head? = some 72)
    (hsize : (text ++ crlf).length < 2 ^ 63) :
    ∃ final, HttpConnection.Head error (text ++ crlf) final ∧ final.cs = firstFinal ∧
      final.chunked = false ∧ final.data = rsp := by
  have hinit : (HttpResponseParser.init error).reinit.resetOffsets.Holds error .init :=
    ⟨rfl, rfl, rfl⟩
  obtain ⟨d, hd, hexec⟩ := h [] crlf _ hsize hinit
  rw [List.nil_append, List.nil_append, List.length_nil] at hexec
  have hend : machine.exec (perform (text ++ crlf)) start 0 (text ++ crlf)
      (HttpResponseParser.init error).reinit.resetOffsets =
        .ok (.stopped 120, text.length + 2, d) := by
    rw [hexec]
    cases hq with
    | inl hq => subst hq; rfl
    | inr hq => subst hq; rfl
  have hlength : (text ++ crlf).length = text.length + 2 := List.length_append
  obtain ⟨hout, hcount⟩ := Machine.exec_outcome hend
  refine ⟨{ d with cs := 120 }, ⟨?_, ?_, ?_, hd.error_eq⟩, rfl, hd.chunked_eq, hd.data_eq⟩
  · rw [List.head?_append, hfirst]
    rfl
  · exact Machine.accepts_of_outcome hout.symm (by omega)
  · have hcs : (HttpResponseParser.init error).reinit.cs = start := rfl
    rw [execute, if_pos rfl, if_neg (by omega), hcs]
    simp only [hend, hlength]
    rfl

end StatusLine

end HttpResponseParser

end CxkFramework
