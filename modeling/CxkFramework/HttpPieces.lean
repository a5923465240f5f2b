import CxkFramework.HttpParser
import Mathlib.Data.List.Find

/-!
# Requests in pieces

The registers of the parser are its offsets. Here is which of them an action uses and sets, what
the table guarantees about them, and that an execution on a piece of a header does to the request
what one on the whole header does there, as long as no offset is live where the piece starts.
-/

namespace CxkFramework

open Scanner Blocks HttpParser

namespace HttpParser

inductive Offset where
  | mark | fieldStart | fieldLen | queryStart
  deriving DecidableEq, Repr

/-- The callback looks at the offset. `on_request_uri` looks at nothing. -/
def uses : Action → Offset → Bool
  | .writeField, .fieldStart => true
  | .writeValue, .mark | .writeValue, .fieldStart | .writeValue, .fieldLen => true
  | .requestMethod, .mark | .fragment, .mark | .httpVersion, .mark | .requestPath, .mark => true
  | .queryString, .queryStart => true
  | _, _ => false

def sets : Action → Offset → Bool
  | .mark, .mark | .startValue, .mark => true
  | .startField, .fieldStart => true
  | .writeField, .fieldLen => true
  | .startQuery, .queryStart => true
  | _, _ => false

/-! ## What the table guarantees -/

/-- `field`: the name of a field ends before the position; `query`: the query starts there. -/
structure Known where
  field : Bool
  query : Bool
  deriving DecidableEq, Repr

instance : LE Known := ⟨fun f f' => f.field ≤ f'.field ∧ f.query ≤ f'.query⟩

instance (f f' : Known) : Decidable (f ≤ f') :=
  inferInstanceAs (Decidable (f.field ≤ f'.field ∧ f.query ≤ f'.query))

/-- A method ends at a space, so that `strncmp` does not read on. -/
def track (b : UInt8) (f : Known) : Action → Option Known
  | .startField => some { f with field := false }
  | .writeField => some { f with field := true }
  | .writeValue => if f.field then some f else none
  | .startQuery => some { f with query := true }
  | .queryString => if f.query then some f else none
  | .requestMethod => if b = 32 then some f else none
  | _ => some f

/-- In 15 and 16 the value of a field is read, in 30 to 32 a query. -/
def facts (cs : Nat) : Known := ⟨cs == 15 || cs == 16, cs == 30 || cs == 31 || cs == 32⟩

def edgeTracked (cs : Nat) (e : Edge) (b : UInt8) : Bool :=
  match trackAll track b (facts cs) e.actions with
  | some f => e.actions.any (· == .done) || decide (facts e.next ≤ f)
  | none => false

def edgeSound (cs : Nat) (e : Edge) : Bool :=
  if e.lo = 32 ∧ e.hi = 32 then edgeTracked cs e 32 else edgeTracked cs e 0

theorem table_sound : everyEdge edgeSound 0 table = true := by set_option maxRecDepth 1000 in decide

/-- No method ends at the zero byte, so what is known there is known on every byte. -/
theorem track_zero {b : UInt8} {f f' : Known} {a : Action} (h : track 0 f a = some f') :
    track b f a = some f' := by
  cases a with
  | requestMethod => simp [track] at h
  | _ => exact h

theorem trackAll_zero {b : UInt8} {f f' : Known} {as : List Action}
    (h : trackAll track 0 f as = some f') : trackAll track b f as = some f' := by
  induction as generalizing f with
  | nil => exact h
  | cons a as ih =>
    rw [trackAll] at h ⊢
    split at h
    · rename_i f₁ htrack
      simp only [track_zero htrack]
      exact ih h
    · simp at h

def discipline (uriRelaxed : Bool) : Discipline (machine uriRelaxed) Known where
  facts := facts
  track := track
  sound := by
    intro cs cs' b as hnext
    obtain ⟨e, rfl, rfl, hlo, hhi, hsound⟩ := next_of_table table_sound hnext
    have htracked : ∃ b', edgeTracked cs e b' = true ∧ (b' = 0 ∨ b' = b) := by
      rw [edgeSound] at hsound
      split at hsound
      · rename_i hspace
        have hb : b = 32 := UInt8.toNat_inj.mp (by simp only [UInt8.reduceToNat]; omega)
        exact ⟨32, hsound, .inr hb.symm⟩
      · exact ⟨0, hsound, .inl rfl⟩
    obtain ⟨b', hedge, hb'⟩ := htracked
    rw [edgeTracked] at hedge
    split at hedge
    · rename_i f hf
      refine ⟨f, ?_, ?_⟩
      · rcases hb' with rfl | rfl
        · exact trackAll_zero hf
        · exact hf
      · intro hstop
        have hdone : e.actions.any (· == .done) = false := hstop
        simpa [hdone] using hedge
    · simp at hedge

/-- No transition leads to the error state, only `done` to a final one. -/
def edgeFinal (_ : Nat) (e : Edge) : Bool :=
  e.next != 0 && (e.actions.any (· == .done) == decide (firstFinal ≤ e.next))

theorem table_final : everyEdge edgeFinal 0 table = true := by set_option maxRecDepth 1000 in decide

end HttpParser

/-! ## Comparisons that stop -/

theorem strncmp_take (a b : List UInt8) (n : Nat) : strncmp (a.take n) b n = strncmp a b n := by
  induction n generalizing a b with
  | zero => rfl
  | succ n ih =>
    cases a with
    | nil => rfl
    | cons c a => simp only [strncmp, List.take_succ_cons, List.headD_cons, List.tail_cons, ih]

/-- A name without spaces is compared no further than to the first space. -/
theorem strncmp_space {a : List UInt8} (ha : 32 ∉ a) (t x y : List UInt8) (n : Nat) :
    strncmp a (t ++ 32 :: x) n = strncmp a (t ++ 32 :: y) n := by
  induction t generalizing a n with
  | nil =>
    cases n with
    | zero => rfl
    | succ n =>
      have hhead : (a.headD 0 == 32) = false := by
        cases a with
        | nil => rfl
        | cons c a =>
          simp only [List.mem_cons, not_or] at ha
          simpa using fun h : c = 32 => ha.1 h.symm
      simp only [strncmp, List.nil_append, List.headD_cons, hhead, Bool.false_and]
  | cons c t ih =>
    cases n with
    | zero => rfl
    | succ n =>
      have htail : 32 ∉ a.tail := fun h => ha (List.mem_of_mem_tail h)
      simp only [strncmp, List.cons_append, List.headD_cons, List.tail_cons, ih htail n]

theorem names_no_space : ∀ n ∈ HttpMethod.names, 32 ∉ chars n.2 :=
  fun n hn hmem => absurd (HttpMethod.names_capital n hn 32 hmem) (by decide)

theorem ofChars_space (t x y : List UInt8) :
    HttpMethod.ofChars (t ++ 32 :: x) = HttpMethod.ofChars (t ++ 32 :: y) := by
  have hfind := List.find?_congr (l := HttpMethod.names)
    fun n hn => strncmp_space (names_no_space n hn) t x y n.2.length
  rw [HttpMethod.ofChars, HttpMethod.ofChars, hfind]

namespace HttpRequestParser

theorem len_shift (k m p : Nat) : len (k + m) (k + p) = len m p := by
  rw [len, len, show k + p + 2 ^ 64 - (k + m) = p + 2 ^ 64 - m by omega]

theorem len_of_le {m p : Nat} (h : m ≤ p) (hp : p < 2 ^ 63) : len m p = p - m := by
  rw [len]
  omega

/-! ## Two buffers with a common piece -/

/-- The offsets lie before the position as far as they are known to. -/
structure Within (f : Known) (p : Nat) (parser : HttpRequestParser) : Prop where
  mark_le : parser.mark ≤ p
  fieldStart_le : parser.fieldStart ≤ p
  field_le : f.field = true → parser.fieldStart + parser.fieldLen ≤ p
  query_le : f.query = true → parser.queryStart ≤ p

/-- The same request has been made so far. -/
def Same (d₁ d₂ : HttpRequestParser) : Prop := d₁.error = d₂.error ∧ d₁.data = d₂.data

/-- The offsets of the first parser are `k` further on. -/
def Agree (k : Nat) (r : Offset) (d₁ d₂ : HttpRequestParser) : Prop :=
  match r with
  | .mark => d₁.mark = k + d₂.mark
  | .fieldStart => d₁.fieldStart = k + d₂.fieldStart
  | .fieldLen => d₁.fieldLen = d₂.fieldLen
  | .queryStart => d₁.queryStart = k + d₂.queryStart

/-- A callback leaves the offsets alone. -/
def SameOffsets (d d' : HttpRequestParser) : Prop :=
  d'.mark = d.mark ∧ d'.fieldStart = d.fieldStart ∧ d'.fieldLen = d.fieldLen ∧
    d'.queryStart = d.queryStart

theorem sameOffsets_setError (d : HttpRequestParser) (v : Nat) : SameOffsets d (d.setError v) :=
  ⟨rfl, rfl, rfl, rfl⟩

theorem sameOffsets_setData (d : HttpRequestParser) (req : HttpRequest) :
    SameOffsets d (d.setData req) :=
  ⟨rfl, rfl, rfl, rfl⟩

theorem SameOffsets.within {f : Known} {p : Nat} {d d' : HttpRequestParser}
    (h : SameOffsets d d') (hd : Within f p d) : Within f p d' := by
  obtain ⟨hmark, hstart, hlen, hquery⟩ := h
  constructor
  · rw [hmark]
    exact hd.mark_le
  · rw [hstart]
    exact hd.fieldStart_le
  · rw [hstart, hlen]
    exact hd.field_le
  · rw [hquery]
    exact hd.query_le

theorem SameOffsets.agree {k : Nat} {r : Offset} {d₁ d₁' d₂ d₂' : HttpRequestParser}
    (h₁ : SameOffsets d₁ d₁') (h₂ : SameOffsets d₂ d₂') (h : Agree k r d₁ d₂) :
    Agree k r d₁' d₂' := by
  obtain ⟨hmark₁, hstart₁, hlen₁, hquery₁⟩ := h₁
  obtain ⟨hmark₂, hstart₂, hlen₂, hquery₂⟩ := h₂
  cases r with
  | mark => simpa only [Agree, hmark₁, hmark₂] using h
  | fieldStart => simpa only [Agree, hstart₁, hstart₂] using h
  | fieldLen => simpa only [Agree, hlen₁, hlen₂] using h
  | queryStart => simpa only [Agree, hquery₁, hquery₂] using h

section Piece

variable {before piece rest extra : List UInt8} {p m : Nat}

theorem take_drop_piece {n : Nat} (h : m + n ≤ piece.length) :
    ((before ++ (piece ++ rest)).drop (before.length + m)).take n =
      ((piece ++ extra).drop m).take n := by
  have hleft : slice (before ++ (piece ++ rest)) (before.length + m) n = slice piece m n := by
    rw [slice_append_right (by omega), Nat.add_sub_cancel_left, slice_append_left h]
  have hright : slice (piece ++ extra) m n = slice piece m n := slice_append_left h
  exact hleft.trans hright.symm

variable (before rest extra) in
theorem makeString_piece {n : Nat} (h : m + n ≤ piece.length) (hsize : piece.length < 2 ^ 63) :
    ∃ v, makeString ((before ++ (piece ++ rest)).drop (before.length + m)) n = .ok v ∧
      makeString ((piece ++ extra).drop m) n = .ok v := by
  refine ⟨((piece ++ extra).drop m).take n, ?_, ?_⟩
  · rw [makeString, if_neg (by omega), take_drop_piece h]
  · rw [makeString, if_neg (by omega)]

variable (before rest extra) in
/-- The text from an offset up to the position. -/
theorem makeString_text (hm : m ≤ p) (hp : p < piece.length) (hsize : piece.length < 2 ^ 63) :
    ∃ v, makeString ((before ++ (piece ++ rest)).drop (before.length + m))
        (len (before.length + m) (before.length + p)) = .ok v ∧
      makeString ((piece ++ extra).drop m) (len m p) = .ok v := by
  rw [len_shift, len_of_le hm (by omega)]
  exact makeString_piece before rest extra (by omega) hsize

theorem ofChars_piece (hb : piece[p]? = some 32) (hm : m ≤ p) :
    HttpMethod.ofChars ((before ++ (piece ++ rest)).drop (before.length + m)) =
      HttpMethod.ofChars ((piece ++ extra).drop m) := by
  have hp : p < piece.length := (List.getElem?_eq_some_iff.mp hb).1
  have hsplit : piece = piece.take p ++ 32 :: piece.drop (p + 1) := by
    rw [← (List.getElem?_eq_some_iff.mp hb).2, ← List.drop_eq_getElem_cons hp,
      List.take_append_drop]
  have hdrop : ∀ more : List UInt8, (piece ++ more).drop m =
      (piece.take p).drop m ++ 32 :: (piece.drop (p + 1) ++ more) := by
    intro more
    conv_lhs => rw [hsplit]
    rw [List.append_assoc, List.cons_append, List.drop_append_of_le_length]
    rw [List.length_take]
    omega
  rw [← List.drop_drop, List.drop_left, hdrop, hdrop]
  exact ofChars_space _ _ _

theorem strncmp_piece (hm : m ≤ p) (hp : p < piece.length) (hsize : piece.length < 2 ^ 63)
    (lit : List UInt8) :
    strncmp ((before ++ (piece ++ rest)).drop (before.length + m)) lit
        (len (before.length + m) (before.length + p)) =
      strncmp ((piece ++ extra).drop m) lit (len m p) := by
  rw [len_shift, ← strncmp_take, ← strncmp_take ((piece ++ extra).drop m),
    len_of_le hm (by omega), take_drop_piece (by omega)]

/-- What an action on the piece has to give back. -/
def Matches (k : Nat) (f : Known) (p : Nat) (a : Action) (d₁ d₂ : HttpRequestParser)
    (r₁ r₂ : Except HttpFault HttpRequestParser) : Prop :=
  ∃ d₁' d₂', r₁ = .ok d₁' ∧ r₂ = .ok d₂' ∧ Within f (k + p) d₁' ∧ Same d₁' d₂' ∧
    ∀ r, sets a r = true ∨ Agree k r d₁ d₂ → Agree k r d₁' d₂'

/-- A callback that makes the same of both requests. -/
theorem matches_of_sameOffsets {k : Nat} {f : Known} {a : Action}
    {d₁ d₂ d₁' d₂' : HttpRequestParser} (ha : ∀ r, sets a r = false)
    (hd : Within f (k + p) d₁) (h₁ : SameOffsets d₁ d₁') (h₂ : SameOffsets d₂ d₂')
    (hs : Same d₁' d₂') : Matches k f p a d₁ d₂ (.ok d₁') (.ok d₂') := by
  refine ⟨d₁', d₂', rfl, rfl, h₁.within hd, hs, ?_⟩
  rintro r (hset | hagree)
  · simp [ha r] at hset
  · exact h₁.agree h₂ hagree

theorem matches_onRequestText {k : Nat} {f : Known} {a : Action} {d₁ d₂ : HttpRequestParser}
    (set : HttpRequest → List UInt8 → HttpRequest) (ha : ∀ r, sets a r = false)
    (hd : Within f (k + p) d₁) (hs : Same d₁ d₂) {t₁ t₂ v : List UInt8} {n₁ n₂ : Nat}
    (h₁ : makeString t₁ n₁ = .ok v) (h₂ : makeString t₂ n₂ = .ok v) :
    Matches k f p a d₁ d₂ (onRequestText set d₁ t₁ n₁) (onRequestText set d₂ t₂ n₂) := by
  have hok₁ : onRequestText set d₁ t₁ n₁ = .ok (d₁.setData (set d₁.data v)) := by
    rw [onRequestText, h₁]
    rfl
  have hok₂ : onRequestText set d₂ t₂ n₂ = .ok (d₂.setData (set d₂.data v)) := by
    rw [onRequestText, h₂]
    rfl
  rw [hok₁, hok₂]
  apply matches_of_sameOffsets ha hd (sameOffsets_setData _ _) (sameOffsets_setData _ _)
  exact ⟨hs.1, congrArg (set · v) hs.2⟩

theorem matches_onRequestMethod {k : Nat} {f : Known} {d₁ d₂ : HttpRequestParser}
    (hd : Within f (k + p) d₁) (hs : Same d₁ d₂) {t₁ t₂ : List UInt8}
    (ht : HttpMethod.ofChars t₁ = HttpMethod.ofChars t₂) :
    Matches k f p .requestMethod d₁ d₂ (.ok (d₁.onRequestMethod t₁))
      (.ok (d₂.onRequestMethod t₂)) := by
  have ha : ∀ r, sets .requestMethod r = false := fun _ => rfl
  rw [onRequestMethod, onRequestMethod, ht]
  split
  · apply matches_of_sameOffsets ha hd (sameOffsets_setError _ _) (sameOffsets_setError _ _)
    exact ⟨rfl, hs.2⟩
  · apply matches_of_sameOffsets ha hd (sameOffsets_setData _ _) (sameOffsets_setData _ _)
    refine ⟨hs.1, ?_⟩
    simp only [setData, hs.2]

theorem matches_onRequestVersion {k : Nat} {f : Known} {d₁ d₂ : HttpRequestParser}
    (hd : Within f (k + p) d₁) (hs : Same d₁ d₂) {t₁ t₂ : List UInt8} {n₁ n₂ : Nat}
    (ht : ∀ lit, strncmp t₁ lit n₁ = strncmp t₂ lit n₂) :
    Matches k f p .httpVersion d₁ d₂ (.ok (d₁.onRequestVersion t₁ n₁))
      (.ok (d₂.onRequestVersion t₂ n₂)) := by
  have ha : ∀ r, sets .httpVersion r = false := fun _ => rfl
  rw [onRequestVersion, onRequestVersion, ht, ht]
  split
  · apply matches_of_sameOffsets ha hd (sameOffsets_setData _ _) (sameOffsets_setData _ _)
    refine ⟨hs.1, ?_⟩
    simp only [setData, hs.2]
  · split
    · apply matches_of_sameOffsets ha hd (sameOffsets_setData _ _) (sameOffsets_setData _ _)
      refine ⟨hs.1, ?_⟩
      simp only [setData, hs.2]
    · apply matches_of_sameOffsets ha hd (sameOffsets_setError _ _) (sameOffsets_setError _ _)
      exact ⟨rfl, hs.2⟩

theorem matches_onRequestHttpField {k : Nat} {f : Known} {d₁ d₂ : HttpRequestParser}
    (hd : Within f (k + p) d₁) (hs : Same d₁ d₂) {t₁ t₂ s₁ s₂ key val : List UInt8}
    {flen n₁ n₂ : Nat} (hkey₁ : makeString t₁ flen = .ok key) (hkey₂ : makeString t₂ flen = .ok key)
    (hval₁ : makeString s₁ n₁ = .ok val) (hval₂ : makeString s₂ n₂ = .ok val) :
    Matches k f p .writeValue d₁ d₂ (d₁.onRequestHttpField t₁ flen s₁ n₁)
      (d₂.onRequestHttpField t₂ flen s₂ n₂) := by
  have ha : ∀ r, sets .writeValue r = false := fun _ => rfl
  rw [onRequestHttpField, onRequestHttpField]
  split
  · exact matches_of_sameOffsets ha hd ⟨rfl, rfl, rfl, rfl⟩ ⟨rfl, rfl, rfl, rfl⟩ hs
  · rw [hkey₁, hkey₂, hval₁, hval₂]
    apply matches_of_sameOffsets ha hd (sameOffsets_setData _ _) (sameOffsets_setData _ _)
    exact ⟨hs.1, congrArg (HttpRequest.setHeader · key val) hs.2⟩

/-- The actions that set an offset to the position. -/
theorem matches_setOffset {k : Nat} {f : Known} {a : Action} {d₁ d₂ d₁' d₂' : HttpRequestParser}
    (hd : Within f (k + p) d₁') (hs : Same d₁' d₂')
    (hr : ∀ r, sets a r = true ∨ Agree k r d₁ d₂ → Agree k r d₁' d₂') :
    Matches k f p a d₁ d₂ (.ok d₁') (.ok d₂') :=
  ⟨d₁', d₂', rfl, rfl, hd, hs, hr⟩

theorem matches_writeField {k n : Nat} {f : Known} {d₁ d₂ : HttpRequestParser}
    (hd : Within f (k + p) d₁) (hs : Same d₁ d₂) (hn : d₁.fieldStart + n ≤ k + p) :
    Matches k { f with field := true } p .writeField d₁ d₂ (.ok { d₁ with fieldLen := n })
      (.ok { d₂ with fieldLen := n }) := by
  refine matches_setOffset ⟨hd.mark_le, hd.fieldStart_le, fun _ => hn, hd.query_le⟩ hs ?_
  rintro (_ | _ | _ | _) h
  · exact h.resolve_left (by decide)
  · exact h.resolve_left (by decide)
  · exact rfl
  · exact h.resolve_left (by decide)

theorem perform_matches {b : UInt8} {f f' : Known} {a : Action} {d₁ d₂ : HttpRequestParser}
    (hsize : (before ++ piece).length < 2 ^ 63) (hb : piece[p]? = some b)
    (hf : track b f a = some f') (hd : Within f (before.length + p) d₁) (hs : Same d₁ d₂)
    (huses : ∀ r, uses a r = true → Agree before.length r d₁ d₂) :
    Matches before.length f' p a d₁ d₂
      (perform (before ++ (piece ++ rest)) (before.length + p) a d₁)
      (perform (piece ++ extra) p a d₂) := by
  rw [List.length_append] at hsize
  have hp : p < piece.length := (List.getElem?_eq_some_iff.mp hb).1
  have hshort : piece.length < 2 ^ 63 := by omega
  -- an action that uses `mark` finds it before the position in the piece
  have hmark : uses a .mark = true → d₁.mark = before.length + d₂.mark ∧ d₂.mark ≤ p := by
    intro h
    have hagree : d₁.mark = before.length + d₂.mark := huses .mark h
    have hle := hd.mark_le
    exact ⟨hagree, by omega⟩
  cases a with
  | mark | startValue =>
    cases hf
    refine matches_setOffset ⟨le_rfl, hd.fieldStart_le, hd.field_le, hd.query_le⟩ hs ?_
    rintro (_ | _ | _ | _) h
    · exact rfl
    · exact h.resolve_left (by decide)
    · exact h.resolve_left (by decide)
    · exact h.resolve_left (by decide)
  | startField =>
    cases hf
    refine matches_setOffset ⟨hd.mark_le, le_rfl, by simp, hd.query_le⟩ hs ?_
    rintro (_ | _ | _ | _) h
    · exact h.resolve_left (by decide)
    · exact rfl
    · exact h.resolve_left (by decide)
    · exact h.resolve_left (by decide)
  | writeField =>
    cases hf
    have hstart : d₁.fieldStart = before.length + d₂.fieldStart := huses .fieldStart rfl
    have hle := hd.fieldStart_le
    have hlen : len d₁.fieldStart (before.length + p) = len d₂.fieldStart p := by
      rw [hstart, len_shift]
    have hend : len d₂.fieldStart p = p - d₂.fieldStart := len_of_le (by omega) (by omega)
    simp only [perform, hlen]
    exact matches_writeField hd hs (by omega)
  | startQuery =>
    cases hf
    refine matches_setOffset ⟨hd.mark_le, hd.fieldStart_le, hd.field_le, fun _ => le_rfl⟩ hs ?_
    rintro (_ | _ | _ | _) h
    · exact h.resolve_left (by decide)
    · exact h.resolve_left (by decide)
    · exact h.resolve_left (by decide)
    · exact rfl
  | writeValue =>
    simp only [track] at hf
    split at hf
    · rename_i hfield
      cases hf
      obtain ⟨hm, hmp⟩ := hmark rfl
      have hstart : d₁.fieldStart = before.length + d₂.fieldStart := huses .fieldStart rfl
      have hlen : d₁.fieldLen = d₂.fieldLen := huses .fieldLen rfl
      have hle := hd.field_le hfield
      have hname : d₂.fieldStart + d₂.fieldLen ≤ piece.length := by omega
      obtain ⟨key, hkey₁, hkey₂⟩ := makeString_piece before rest extra hname hshort
      obtain ⟨val, hval₁, hval₂⟩ := makeString_text before rest extra hmp hp hshort
      simp only [perform, hm, hstart, hlen]
      exact matches_onRequestHttpField hd hs hkey₁ hkey₂ hval₁ hval₂
    · simp at hf
  | requestMethod =>
    simp only [track] at hf
    split at hf
    · rename_i hspace
      cases hf
      obtain ⟨hm, hmp⟩ := hmark rfl
      rw [hspace] at hb
      simp only [perform, hm]
      exact matches_onRequestMethod hd hs (ofChars_piece hb hmp)
    · simp at hf
  | fragment =>
    cases hf
    obtain ⟨hm, hmp⟩ := hmark rfl
    obtain ⟨v, hv₁, hv₂⟩ := makeString_text before rest extra hmp hp hshort
    simp only [perform, hm]
    exact matches_onRequestText _ (fun _ => rfl) hd hs hv₁ hv₂
  | requestPath =>
    cases hf
    obtain ⟨hm, hmp⟩ := hmark rfl
    obtain ⟨v, hv₁, hv₂⟩ := makeString_text before rest extra hmp hp hshort
    simp only [perform, hm]
    exact matches_onRequestText _ (fun _ => rfl) hd hs hv₁ hv₂
  | queryString =>
    simp only [track] at hf
    split at hf
    · rename_i hquery
      cases hf
      have hq : d₁.queryStart = before.length + d₂.queryStart := huses .queryStart rfl
      have hle := hd.query_le hquery
      have hqp : d₂.queryStart ≤ p := by omega
      obtain ⟨v, hv₁, hv₂⟩ := makeString_text before rest extra hqp hp hshort
      simp only [perform, hq]
      exact matches_onRequestText _ (fun _ => rfl) hd hs hv₁ hv₂
    · simp at hf
  | httpVersion =>
    cases hf
    obtain ⟨hm, hmp⟩ := hmark rfl
    simp only [perform, hm]
    exact matches_onRequestVersion hd hs (strncmp_piece hmp hp hshort)
  | requestUri | done | xml | json =>
    cases hf
    exact matches_of_sameOffsets (fun _ => rfl) hd ⟨rfl, rfl, rfl, rfl⟩ ⟨rfl, rfl, rfl, rfl⟩ hs

/-- The run on a header and the run on a piece of it, which more bytes may follow. -/
theorem simulates (uriRelaxed : Bool) (rest extra : List UInt8)
    (hsize : (before ++ piece).length < 2 ^ 63) :
    Simulates (discipline uriRelaxed) uses sets piece before.length
      (perform (before ++ (piece ++ rest))) (perform (piece ++ extra)) Within Same
      (Agree before.length) where
  weaken := by
    intro f f' p d hf hd
    constructor
    · exact Nat.le_succ_of_le hd.mark_le
    · exact Nat.le_succ_of_le hd.fieldStart_le
    · intro hfield
      exact Nat.le_succ_of_le (hd.field_le (hf.1 hfield))
    · intro hquery
      exact Nat.le_succ_of_le (hd.query_le (hf.2 hquery))
  action := perform_matches hsize

end Piece

/-- The error of a callback stays, and nothing of the machine is changed. -/
def Keeps (d d' : HttpRequestParser) : Prop :=
  (d.error ≠ 0 → d'.error ≠ 0) ∧ d'.cs = d.cs ∧ d'.uriRelaxed = d.uriRelaxed

theorem keeps_setData (d : HttpRequestParser) (req : HttpRequest) : Keeps d (d.setData req) :=
  ⟨id, rfl, rfl⟩

theorem keeps_setError (d : HttpRequestParser) {v : Nat} (hv : v ≠ 0) : Keeps d (d.setError v) :=
  ⟨fun _ => hv, rfl, rfl⟩

theorem keeps_onRequestText (set : HttpRequest → List UInt8 → HttpRequest)
    {d d' : HttpRequestParser} {text : List UInt8} {n : Nat}
    (h : onRequestText set d text n = .ok d') : Keeps d d' := by
  rw [onRequestText] at h
  cases hv : makeString text n with
  | error e => simp [hv, bind, Except.bind] at h
  | ok v =>
    rw [hv] at h
    cases h
    exact keeps_setData d _

theorem keeps_onRequestHttpField {d d' : HttpRequestParser} {field value : List UInt8}
    {flen vlen : Nat} (h : d.onRequestHttpField field flen value vlen = .ok d') : Keeps d d' := by
  rw [onRequestHttpField] at h
  split at h
  · cases h
    exact ⟨id, rfl, rfl⟩
  · cases hkey : makeString field flen with
    | error e => simp [hkey, bind, Except.bind] at h
    | ok key =>
      cases hval : makeString value vlen with
      | error e => simp [hkey, hval, bind, Except.bind] at h
      | ok val =>
        rw [hkey, hval] at h
        cases h
        exact keeps_setData d _

theorem keeps_onRequestMethod (d : HttpRequestParser) (text : List UInt8) :
    Keeps d (d.onRequestMethod text) := by
  rw [onRequestMethod]
  split
  · exact keeps_setError d (by decide)
  · exact keeps_setData d _

theorem keeps_onRequestVersion (d : HttpRequestParser) (text : List UInt8) (n : Nat) :
    Keeps d (d.onRequestVersion text n) := by
  rw [onRequestVersion]
  split
  · exact keeps_setData d _
  · split
    · exact keeps_setData d _
    · exact keeps_setError d (by decide)

theorem keeps_perform {buffer : List UInt8} {p : Nat} {a : Action} {d d' : HttpRequestParser}
    (h : perform buffer p a d = .ok d') : Keeps d d' := by
  cases a with
  | fragment => exact keeps_onRequestText (fun req v => { req with fragment := v }) h
  | queryString => exact keeps_onRequestText (fun req v => { req with query := v }) h
  | requestPath => exact keeps_onRequestText (fun req v => { req with path := v }) h
  | writeValue => exact keeps_onRequestHttpField h
  | requestMethod =>
    cases h
    exact keeps_onRequestMethod d _
  | httpVersion =>
    cases h
    exact keeps_onRequestVersion d _ _
  | _ =>
    cases h
    exact ⟨id, rfl, rfl⟩

theorem keeps_exec {uriRelaxed : Bool} {buffer bs : List UInt8} {cs p n : Nat}
    {d d' : HttpRequestParser} {v : Verdict Nat}
    (h : (machine uriRelaxed).exec (perform buffer) cs p bs d = .ok (v, n, d')) : Keeps d d' := by
  apply Machine.exec_invariant (P := Keeps d) _ h ⟨id, rfl, rfl⟩
  intro p a e e' he hd
  obtain ⟨herror, hcs, huri⟩ := keeps_perform he
  exact ⟨fun hne => herror (hd.1 hne), hcs.trans hd.2.1, huri.trans hd.2.2⟩

/-! ## Executions -/

/-- No offset is live behind the first `c` bytes of a header. -/
def quietAt (uriRelaxed : Bool) (header : List UInt8) (c : Nat) : Bool :=
  match (machine uriRelaxed).after start (header.take c) with
  | none => true
  | some cs =>
    [Offset.mark, .fieldStart, .fieldLen, .queryStart].all fun r =>
      !live (machine uriRelaxed) uses sets r cs (header.drop c)

theorem not_live_of_quietAt {uriRelaxed : Bool} {u v : List UInt8} {cs : Nat}
    (h : quietAt uriRelaxed (u ++ v) u.length = true)
    (hcs : (machine uriRelaxed).after start u = some cs) (r : Offset) :
    live (machine uriRelaxed) uses sets r cs v = false := by
  rw [quietAt, List.take_left, List.drop_left, hcs] at h
  simp only [List.all_cons, List.all_nil, Bool.and_true, Bool.and_eq_true,
    Bool.not_eq_true'] at h
  obtain ⟨hmark, hstart, hlen, hquery⟩ := h
  cases r with
  | mark => exact hmark
  | fieldStart => exact hstart
  | fieldLen => exact hlen
  | queryStart => exact hquery

/-- A parser that was given `u` in pieces, and what one execution on the whole header has made of
`u`, in state `cs`. -/
structure Follows (header : List UInt8) (fresh : HttpRequestParser) (u : List UInt8) (cs : Nat)
    (whole parser : HttpRequestParser) : Prop where
  after_eq : (machine fresh.uriRelaxed).after start u = some cs
  exec_eq : (machine fresh.uriRelaxed).exec (perform header) start 0 u fresh =
    .ok (.running cs, u.length, whole)
  within : Within (facts cs) u.length whole
  same : Same whole parser
  cs_eq : parser.cs = cs
  cs_ne : cs ≠ 0
  uriRelaxed_eq : parser.uriRelaxed = fresh.uriRelaxed

theorem follows_init (header : List UInt8) (uriRelaxed : Bool) (queryStart : Nat) :
    Follows header (init uriRelaxed queryStart) [] start (init uriRelaxed queryStart)
      (init uriRelaxed queryStart) where
  after_eq := rfl
  exec_eq := rfl
  within := ⟨le_rfl, le_rfl, by simp [facts, start], by simp [facts, start]⟩
  same := ⟨rfl, rfl⟩
  cs_eq := rfl
  cs_ne := by decide
  uriRelaxed_eq := rfl

theorem agree_init (uriRelaxed : Bool) (queryStart : Nat) (r : Offset) :
    Agree 0 r (init uriRelaxed queryStart) (init uriRelaxed queryStart).resetOffsets := by
  cases r with
  | queryStart => exact (Nat.zero_add queryStart).symm
  | _ => rfl

/-- What `execute` makes of a run. -/
theorem execute_of_exec {d d' : HttpRequestParser} {buffer : List UInt8} {v : Verdict Nat}
    {n : Nat} (hbuffer : buffer ≠ []) (hcs : d.cs ≠ 0)
    (h : (machine d.uriRelaxed).exec (perform buffer) d.cs 0 buffer d.resetOffsets =
      .ok (v, n, d')) : d.execute buffer = .ok ({ d' with cs := stateOf v }, n) := by
  have hcs' : d'.cs ≠ 0 := by
    rw [(keeps_exec h).2.1]
    exact hcs
  have hlength : buffer.length ≠ 0 := by simpa using hbuffer
  simp only [execute, hlength, if_false, h, hcs']

theorem state_of_after {uriRelaxed : Bool} {cs cs' : Nat} {u : List UInt8} (hu : u ≠ [])
    (h : (machine uriRelaxed).after cs u = some cs') : cs' ≠ 0 ∧ cs' < firstFinal := by
  obtain ⟨cs₁, b, as, hnext, hstop⟩ := Machine.next_of_after hu h
  obtain ⟨e, rfl, rfl, _, _, hfinal⟩ := next_of_table table_final hnext
  have hdone : e.actions.any (· == .done) = false := hstop
  simp only [edgeFinal, hdone, Bool.and_eq_true, bne_iff_ne, ne_eq, beq_iff_eq] at hfinal
  exact ⟨hfinal.1, by simpa using hfinal.2.symm⟩

theorem state_of_stopped {uriRelaxed : Bool} {cs cs' : Nat} {u : List UInt8}
    (h : (machine uriRelaxed).outcome cs u = .stopped cs') : cs' ≠ 0 ∧ firstFinal ≤ cs' := by
  obtain ⟨cs₁, b, as, hnext, hstop⟩ := Machine.next_of_stopped h
  obtain ⟨e, rfl, rfl, _, _, hfinal⟩ := next_of_table table_final hnext
  have hdone : e.actions.any (· == .done) = true := hstop
  simp only [edgeFinal, hdone, Bool.and_eq_true, bne_iff_ne, ne_eq, beq_iff_eq] at hfinal
  exact ⟨hfinal.1, by simpa using hfinal.2.symm⟩

section Execute

variable {header u w v extra : List UInt8} {fresh whole parser : HttpRequestParser} {cs : Nat}

/-- One more piece, inside the header. -/
theorem Follows.execute_piece (F : Follows header fresh u cs whole parser)
    (hheader : header = u ++ (w ++ v)) (hsize : header.length < 2 ^ 63) (hw : w ≠ []) (hv : v ≠ [])
    (haccepts : (machine fresh.uriRelaxed).accepts start header = true)
    (hl : ∀ r, live (machine fresh.uriRelaxed) uses sets r cs (w ++ v) = true →
      Agree u.length r whole parser.resetOffsets) :
    ∃ cs' whole' parser', parser.execute w = .ok (parser', w.length) ∧
      cs' < firstFinal ∧ Follows header fresh (u ++ w) cs' whole' parser' := by
  rw [hheader, Machine.accepts_append F.after_eq] at haccepts
  obtain ⟨cs', hafter⟩ := Machine.after_of_accepts haccepts hv
  obtain ⟨hout, hcount⟩ := Machine.outcome_of_after hafter
  obtain ⟨hne, hfinal⟩ := state_of_after hw hafter
  have hsize' : (u ++ w).length < 2 ^ 63 := by
    simp only [hheader, List.length_append] at hsize ⊢
    omega
  have S := simulates fresh.uriRelaxed v [] hsize'
  rw [← hheader, List.append_nil] at S
  have hsame : Same whole parser.resetOffsets := F.same
  obtain ⟨whole', parser', h₁, h₂, hsame', hwithin⟩ := S.exec (p := 0) List.drop_zero F.within
    hsame (fun r hr => hl r (live_append v hr))
  rw [hout, hcount] at h₁ h₂
  rw [Nat.zero_add] at h₂
  rw [Nat.add_zero] at h₁
  have hexec : (machine parser.uriRelaxed).exec (perform w) parser.cs 0 w parser.resetOffsets =
      .ok (.running cs', w.length, parser') := by
    rw [F.uriRelaxed_eq, F.cs_eq]
    exact h₂
  have hkeeps := keeps_exec h₂
  refine ⟨cs', whole', { parser' with cs := cs' }, ?_, hfinal, ?_⟩
  · exact execute_of_exec hw (F.cs_eq ▸ F.cs_ne) hexec
  · refine ⟨?_, ?_, ?_, hsame', rfl, hne, hkeeps.2.2.trans F.uriRelaxed_eq⟩
    · rw [Machine.after_append F.after_eq, hafter]
    · rw [Machine.exec_append F.after_eq F.exec_eq, h₁, List.length_append]
    · rw [List.length_append]
      exact hwithin cs' hafter

/-- The piece that ends the header, and what comes with it. -/
theorem Follows.execute_last (F : Follows header fresh u cs whole parser)
    (hheader : header = u ++ w) (hsize : header.length < 2 ^ 63)
    (haccepts : (machine fresh.uriRelaxed).accepts start header = true)
    (hl : ∀ r, live (machine fresh.uriRelaxed) uses sets r cs w = true →
      Agree u.length r whole parser.resetOffsets) (extra : List UInt8) :
    ∃ cs' whole' parser', (machine fresh.uriRelaxed).exec (perform header) start 0 header fresh =
        .ok (.stopped cs', header.length, whole') ∧
      parser.execute (w ++ extra) = .ok (parser', w.length) ∧ parser'.cs ≠ 0 ∧
      firstFinal ≤ parser'.cs ∧ Same whole' parser' := by
  have haccepts' := haccepts
  rw [hheader, Machine.accepts_append F.after_eq] at haccepts'
  obtain ⟨⟨cs', hout⟩, hcount⟩ := Machine.outcome_of_accepts haccepts'
  obtain ⟨hne, hfinal⟩ := state_of_stopped hout
  have hw : w ≠ [] := by
    rintro rfl
    simp [Machine.accepts] at haccepts'
  have S := simulates fresh.uriRelaxed [] extra (hheader ▸ hsize)
  rw [List.append_nil, ← hheader] at S
  have hsame : Same whole parser.resetOffsets := F.same
  obtain ⟨whole', parser', h₁, h₂, hsame', _⟩ := S.exec (p := 0) List.drop_zero F.within
    hsame hl
  rw [hout, hcount] at h₁ h₂
  rw [Nat.zero_add] at h₂
  rw [Nat.add_zero] at h₁
  have hexec : (machine parser.uriRelaxed).exec (perform (w ++ extra)) parser.cs 0 (w ++ extra)
      parser.resetOffsets = .ok (.stopped cs', w.length, parser') := by
    rw [F.uriRelaxed_eq, F.cs_eq, Machine.exec_append_of_accepts haccepts']
    exact h₂
  refine ⟨cs', whole', { parser' with cs := cs' }, ?_, ?_, hne, hfinal, hsame'⟩
  · have happend := Machine.exec_append (v := w) F.after_eq F.exec_eq
    rw [← hheader, h₁] at happend
    rw [happend, hheader, List.length_append]
  · exact execute_of_exec (List.append_ne_nil_of_left_ne_nil hw extra) (F.cs_eq ▸ F.cs_ne) hexec

end Execute

end HttpRequestParser

end CxkFramework
