import CxkFramework.ScannerWords

/-!
# Rules for the pieces of a text

What a machine makes of a text is put together from what it makes of its pieces. A piece is read
from a state and data with one property to a state and data with another, wherever it is in the
buffer. The properties see what was read before, so that they can tell which part of it an offset
marks.
-/

namespace CxkFramework.Scanner

variable {Q A D ε : Type*}

namespace Machine

/-- From `q` and data with `P` the machine reads `text` and comes to `q'` and data with `P'`, in
every buffer of fewer than `bound` bytes. -/
def Reads (M : Machine Q A) (act : List UInt8 → Nat → A → D → Except ε D) (bound : Nat) (q : Q)
    (P : List UInt8 → D → Prop) (text : List UInt8) (q' : Q) (P' : List UInt8 → D → Prop) : Prop :=
  ∀ (front rest : List UInt8) (d : D), (front ++ (text ++ rest)).length < bound → P front d →
    ∃ d', P' (front ++ text) d' ∧
      M.exec (act (front ++ (text ++ rest))) q front.length (text ++ rest) d =
        M.exec (act (front ++ (text ++ rest))) q' (front ++ text).length rest d'

section Reads

variable {M : Machine Q A} {act : List UInt8 → Nat → A → D → Except ε D} {bound : Nat}
  {q q' q'' : Q} {P P' P'' : List UInt8 → D → Prop} {text text' : List UInt8}

theorem Reads.nil : M.Reads act bound q P [] q P := by
  intro front rest d _ hd
  refine ⟨d, ?_, ?_⟩
  · rwa [List.append_nil]
  · rw [List.nil_append, List.append_nil]

theorem Reads.append (h : M.Reads act bound q P text q' P')
    (h' : M.Reads act bound q' P' text' q'' P'') :
    M.Reads act bound q P (text ++ text') q'' P'' := by
  intro front rest d hsize hd
  rw [List.append_assoc] at hsize ⊢
  obtain ⟨d₁, hd₁, h₁⟩ := h front (text' ++ rest) d hsize hd
  have hassoc : front ++ (text ++ (text' ++ rest)) = (front ++ text) ++ (text' ++ rest) := by
    rw [List.append_assoc]
  rw [hassoc] at hsize h₁ ⊢
  obtain ⟨d₂, hd₂, h₂⟩ := h' (front ++ text) rest d₁ hsize hd₁
  rw [← List.append_assoc front text text']
  exact ⟨d₂, hd₂, h₁.trans h₂⟩

/-- One byte and the actions on it. -/
theorem reads_byte {b : UInt8} {as : List A} (hnext : M.next q b = some (q', as))
    (hstop : as.any M.stops = false)
    (hact : ∀ (front rest : List UInt8) (d : D), (front ++ b :: rest).length < bound → P front d →
      ∃ d', P' (front ++ [b]) d' ∧
        performAll (act (front ++ b :: rest) front.length) as d = .ok d') :
    M.Reads act bound q P [b] q' P' := by
  intro front rest d hsize hd
  obtain ⟨d', hd', hall⟩ := hact front rest d hsize hd
  refine ⟨d', hd', ?_⟩
  rw [List.singleton_append, exec, hnext, List.length_append, List.length_singleton]
  simp only [hall, hstop, Bool.false_eq_true, if_false]

/-- A word without actions. -/
theorem reads_glide (hglide : M.glide q text = some q')
    (hkeep : ∀ front d, P front d → P' (front ++ text) d) :
    M.Reads act bound q P text q' P' := by
  intro front rest d _ hd
  refine ⟨d, hkeep front d hd, ?_⟩
  rw [exec_glide hglide, List.length_append]

end Reads

end Machine

/-! ## What an offset marks -/

/-- `text` is what was read since the offset. -/
def Since (offset : Nat) (text front : List UInt8) : Prop :=
  ∃ before, front = before ++ text ∧ offset = before.length

section Since

variable {offset : Nat} {text front : List UInt8}

theorem since_nil (front : List UInt8) : Since front.length [] front :=
  ⟨front, (List.append_nil front).symm, rfl⟩

theorem Since.append (h : Since offset text front) (more : List UInt8) :
    Since offset (text ++ more) (front ++ more) := by
  obtain ⟨before, rfl, rfl⟩ := h
  exact ⟨before, List.append_assoc before text more, rfl⟩

theorem Since.drop (h : Since offset text front) (rest : List UInt8) :
    (front ++ rest).drop offset = text ++ rest := by
  obtain ⟨before, rfl, rfl⟩ := h
  rw [List.append_assoc, List.drop_left]

theorem Since.length_eq (h : Since offset text front) : front.length = offset + text.length := by
  obtain ⟨before, rfl, rfl⟩ := h
  exact List.length_append

end Since

end CxkFramework.Scanner
