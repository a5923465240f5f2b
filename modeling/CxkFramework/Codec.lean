import Mathlib.Data.List.Basic

/-!
# Codecs with bounded output

A codec is called with a piece of input and with room for so many bytes of output. A call that fills
the room has to be repeated with what is left of the piece; one that leaves room has taken the piece
and put out all it had to. The flag of a call says that no more input will come.
-/

namespace CxkFramework

/-- What a call returns. -/
structure Called (σ : Type*) where
  state : σ
  rest : List UInt8
  out : List UInt8
  /-- The call was not allowed in this state. -/
  refused : Bool

/-- The calls that leave no room come to an end: `pending` bounds the output still to come. -/
structure Codec (σ : Type*) where
  call : σ → List UInt8 → Bool → Nat → Called σ
  /-- Its resources are released. -/
  close : σ → σ
  accepts : σ → Bool → Prop
  pending : σ → List UInt8 → Bool → Nat
  accepts_finish : ∀ {z}, accepts z false → accepts z true
  not_refused : ∀ {z p finish room}, accepts z finish → 0 < room →
    (call z p finish room).refused = false
  accepts_call : ∀ {z p finish room}, accepts z finish → 0 < room →
    accepts (call z p finish room).state finish
  length_out_le : ∀ {z p finish room}, accepts z finish → 0 < room →
    (call z p finish room).out.length ≤ room
  rest_eq_nil : ∀ {z p finish room}, accepts z finish → 0 < room →
    (call z p finish room).out.length < room → (call z p finish room).rest = []
  pending_lt : ∀ {z p finish room}, accepts z finish → 0 < room →
    (call z p finish room).out.length = room →
    pending (call z p finish room).state (call z p finish room).rest finish < pending z p finish

namespace Codec

variable {σ τ : Type*} {c : Codec σ} {d : Codec τ} {z z' : σ}

/-- The calls for one piece, in rooms of any sizes, and all their output. -/
inductive Feeds (c : Codec σ) (finish : Bool) : σ → List UInt8 → List UInt8 → σ → Prop where
  | last {z : σ} {p : List UInt8} {room : Nat} : 0 < room →
      (c.call z p finish room).out.length < room → (c.call z p finish room).rest = [] →
      Feeds c finish z p (c.call z p finish room).out (c.call z p finish room).state
  | more {z z' : σ} {p bytes : List UInt8} {room : Nat} : 0 < room →
      (c.call z p finish room).out.length = room →
      Feeds c finish (c.call z p finish room).state (c.call z p finish room).rest bytes z' →
      Feeds c finish z p ((c.call z p finish room).out ++ bytes) z'

/-- The pieces one after the other, none of them the last. -/
inductive FeedsAll (c : Codec σ) : σ → List (List UInt8) → List UInt8 → σ → Prop where
  | nil (z : σ) : FeedsAll c z [] [] z
  | cons {z z' z'' : σ} {p : List UInt8} {ps : List (List UInt8)} {bytes bytes' : List UInt8} :
      Feeds c false z p bytes z' → FeedsAll c z' ps bytes' z'' →
      FeedsAll c z (p :: ps) (bytes ++ bytes') z''

theorem FeedsAll.append {ps qs : List (List UInt8)} {bytes bytes' : List UInt8} {z'' : σ}
    (h : FeedsAll c z ps bytes z') (h' : FeedsAll c z' qs bytes' z'') :
    FeedsAll c z (ps ++ qs) (bytes ++ bytes') z'' := by
  induction h with
  | nil z => exact h'
  | cons hp _ ih =>
    rw [List.append_assoc]
    exact .cons hp (ih h')

/-- `bytes` is all the output for the pieces, the end of the input included. -/
def Codes (c : Codec σ) (z : σ) (ps : List (List UInt8)) (bytes : List UInt8) : Prop :=
  ∃ z' z'' out tail, FeedsAll c z ps out z' ∧ Feeds c true z' [] tail z'' ∧ bytes = out ++ tail

/-- Whatever `c` makes of some data, in pieces of any sizes, `d` takes back to the data. -/
def Inverts (c : Codec σ) (z : σ) (d : Codec τ) (y : τ) : Prop :=
  ∀ ps bytes, Codes c z ps bytes → ∀ qs out, qs.flatten = bytes → Codes d y qs out → out = ps.flatten

/-! ## Codecs that put out what they know -/

section Online

variable {f : List UInt8 → Bool → List UInt8}

/-- `f` says what can be put out after some input. The state is the input so far and the number of
bytes that are out. -/
def online (f : List UInt8 → Bool → List UInt8) : Codec (List UInt8 × Nat) where
  call z p finish room :=
    let out := ((f (z.1 ++ p) finish).drop z.2).take room
    ⟨(z.1 ++ p, z.2 + out.length), [], out, false⟩
  close z := z
  accepts _ _ := True
  pending z p finish := (f (z.1 ++ p) finish).length - z.2
  accepts_finish _ := trivial
  not_refused _ _ := rfl
  accepts_call _ _ := trivial
  length_out_le _ _ := List.length_take_le _ _
  rest_eq_nil _ _ _ := rfl
  pending_lt := by
    intro z p finish room _ hroom hfull
    simp only [List.length_take, List.length_drop] at hfull
    simp only [List.append_nil, List.length_take, List.length_drop]
    omega

/-- The calls for a piece put out what `f` says and is not out yet. -/
theorem Feeds.online_eq {finish : Bool} {z z' : List UInt8 × Nat} {p bytes : List UInt8}
    (h : Feeds (online f) finish z p bytes z') :
    bytes = (f (z.1 ++ p) finish).drop z.2 ∧ z' = (z.1 ++ p, z.2 + bytes.length) := by
  induction h with
  | @last z p room hroom hlt hrest =>
    simp only [online, List.length_take, List.length_drop] at hlt
    have hall : (f (z.1 ++ p) finish).length - z.2 ≤ room := by omega
    constructor
    · simp only [online]
      exact List.take_of_length_le (by rw [List.length_drop]; exact hall)
    · rfl
  | @more z z' p bytes room hroom hfull _ ih =>
    obtain ⟨hbytes, hz'⟩ := ih
    simp only [online, List.append_nil, List.length_take, List.length_drop] at hfull hbytes hz' ⊢
    have hbytes : bytes = ((f (z.1 ++ p) finish).drop z.2).drop room := by
      rw [hbytes, hfull, List.drop_drop]
    constructor
    · rw [hbytes, List.take_append_drop]
    · rw [hz', List.length_append, List.length_take, List.length_drop]
      simp only [Prod.mk.injEq, true_and]
      omega

variable (mono : ∀ acc p finish, f acc false <+: f (acc ++ p) finish)

include mono in
theorem FeedsAll.online_eq {ps : List (List UInt8)} {z z' : List UInt8 × Nat}
    {bytes : List UInt8} (h : FeedsAll (online f) z ps bytes z')
    (hz : z.2 = (f z.1 false).length) :
    f z.1 false ++ bytes = f (z.1 ++ ps.flatten) false ∧ z'.1 = z.1 ++ ps.flatten ∧
      z'.2 = (f z'.1 false).length := by
  induction h with
  | nil z => simpa using hz
  | @cons z z' z'' p ps bytes bytes' hp hps ih =>
    obtain ⟨hbytes, rfl⟩ := hp.online_eq
    have hout : f z.1 false ++ bytes = f (z.1 ++ p) false := by
      obtain ⟨tail, htail⟩ := mono z.1 p false
      rw [hbytes, hz, ← htail, List.drop_left]
    have hlength := congrArg List.length hout
    rw [List.length_append, ← hz] at hlength
    obtain ⟨hrest, hend, hcount⟩ := ih hlength
    rw [List.flatten_cons, ← List.append_assoc, ← List.append_assoc, hout]
    exact ⟨hrest, hend, hcount⟩

include mono in
theorem Codes.online_eq {ps : List (List UInt8)} {bytes : List UInt8}
    (h : Codes (online f) ([], 0) ps bytes) (hnil : f [] false = []) :
    bytes = f ps.flatten true := by
  obtain ⟨z', z'', out, tail, hout, htail, rfl⟩ := h
  obtain ⟨hall, hend, hcount⟩ := hout.online_eq mono (by simp [hnil])
  obtain ⟨rfl, -⟩ := htail.online_eq
  simp only [hnil, List.nil_append] at hall hend
  obtain ⟨rest, hrest⟩ := mono z'.1 [] true
  rw [List.append_nil] at hrest ⊢
  rw [hcount, ← hrest, List.drop_left, hall, ← hend, hrest]

include mono in
/-- The output of a codec that puts out what it knows does not depend on pieces and rooms. -/
theorem inverts_online {g : List UInt8 → Bool → List UInt8}
    (mono' : ∀ acc p finish, g acc false <+: g (acc ++ p) finish) (hnil : f [] false = [])
    (hnil' : g [] false = []) (inverse : ∀ data, g (f data true) true = data) :
    Inverts (online f) ([], 0) (online g) ([], 0) := by
  intro ps bytes hcodes qs out hqs hout
  rw [hout.online_eq mono' hnil', hqs, hcodes.online_eq mono hnil, inverse]

end Online

end Codec

end CxkFramework
