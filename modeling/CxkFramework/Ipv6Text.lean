import CxkFramework.IpNetwork
import CxkFramework.Substrings
import Mathlib.Data.List.OfFn

/-!
# The text of an IPv6 address

`IPv6Address::insert` against the textual forms of RFC 4291.
-/

namespace CxkFramework

/-! ## Textual forms -/

namespace Rfc4291

def hexValue (c : Char) : Option Nat :=
  if '0' ≤ c ∧ c ≤ '9' then some (c.toNat - '0'.toNat)
  else if 'a' ≤ c ∧ c ≤ 'f' then some (c.toNat - 'a'.toNat + 10)
  else if 'A' ≤ c ∧ c ≤ 'F' then some (c.toNat - 'A'.toNat + 10)
  else none

def groupValue (h : List Char) : Nat :=
  h.foldl (fun value c => 16 * value + (hexValue c).getD 0) 0

/-- One to four hexadecimal digits. -/
def IsGroup (h : List Char) : Prop := h ≠ [] ∧ h.length ≤ 4 ∧ ∀ c ∈ h, hexValue c ≠ none

def join : List (List Char) → List Char
  | [] => []
  | [h] => h
  | h :: hs => h ++ ':' :: join hs

/-- A text with the values of the eight groups. -/
inductive Denotes : List Char → List Nat → Prop where
  | full (hs : List (List Char)) (hgroups : ∀ h ∈ hs, IsGroup h) (hlength : hs.length = 8) :
      Denotes (join hs) (hs.map groupValue)
  /-- `::` stands once, for one or more groups of zeros. -/
  | compressed (l r : List (List Char)) (hl : ∀ h ∈ l, IsGroup h) (hr : ∀ h ∈ r, IsGroup h)
      (hlength : l.length + r.length < 8) :
      Denotes (join l ++ ':' :: ':' :: join r)
        (l.map groupValue ++ List.replicate (8 - (l.length + r.length)) 0 ++ r.map groupValue)

theorem hexValue_colon : hexValue ':' = none := by decide

theorem colon_not_mem {h : List Char} (hgroup : IsGroup h) : ':' ∉ h :=
  fun hmem => hgroup.2.2 ':' hmem hexValue_colon

/-- What may stand behind groups: nothing, or a colon that no further group follows. -/
def Ends (s : List Char) : Prop := s = [] ∨ ∃ t, s = ':' :: t ∧ ∀ d ∈ t.head?, d = ':'

theorem Ends.head {s : List Char} (hs : Ends s) : ∀ d ∈ s.head?, d = ':' := by
  obtain rfl | ⟨t, rfl, -⟩ := hs <;> simp

/-- What follows a group. -/
def behind (hs : List (List Char)) (s : List Char) : List Char :=
  if hs = [] then s else ':' :: (join hs ++ s)

theorem join_cons (h : List Char) (hs : List (List Char)) (s : List Char) :
    join (h :: hs) ++ s = h ++ behind hs s := by
  cases hs with
  | nil => rfl
  | cons h' hs => simp [join, behind]

theorem behind_head {s : List Char} (hs : List (List Char)) (hends : Ends s) :
    ∀ d ∈ (behind hs s).head?, d = ':' := by
  rw [behind]
  split
  · exact hends.head
  · simp

/-- Groups begin with a digit. -/
theorem join_head {h : List Char} {hs : List (List Char)} (hgroup : IsGroup h) (s : List Char) :
    ¬∀ d ∈ (join (h :: hs) ++ s).head?, d = ':' := by
  intro hcolon
  cases h with
  | nil => exact hgroup.1 rfl
  | cons d h =>
    have hd := hcolon d (by cases hs <;> rfl)
    exact colon_not_mem hgroup (hd ▸ .head h)

/-- The groups of a text and what follows them are determined. -/
theorem join_unique {l l' : List (List Char)} {s s' : List Char} (hl : ∀ h ∈ l, IsGroup h)
    (hl' : ∀ h ∈ l', IsGroup h) (hs : Ends s) (hs' : Ends s') (h : join l ++ s = join l' ++ s') :
    l = l' ∧ s = s' := by
  induction l generalizing l' with
  | nil =>
    cases l' with
    | nil => exact ⟨rfl, h⟩
    | cons h' l' =>
      have hhead := hs.head
      rw [show s = join (h' :: l') ++ s' from h] at hhead
      exact absurd hhead (join_head (hl' h' (.head _)) s')
  | cons g l ih =>
    cases l' with
    | nil =>
      have hhead := hs'.head
      rw [show s' = join (g :: l) ++ s from h.symm] at hhead
      exact absurd hhead (join_head (hl g (.head _)) s)
    | cons g' l' =>
      rw [join_cons, join_cons] at h
      obtain ⟨rfl, hbehind⟩ := Substrings.cut_unique (colon_not_mem (hl g (.head _)))
        (colon_not_mem (hl' g' (.head _))) (behind_head l hs) (behind_head l' hs') h
      have hrest : join l ++ s = join l' ++ s' := by
        cases l with
        | nil =>
          cases l' with
          | nil => exact hbehind
          | cons g' l' =>
            -- behind a colon there is no digit
            obtain rfl | ⟨t, rfl, ht⟩ := hs
            · cases hbehind
            · rw [show t = join (g' :: l') ++ s' from (List.cons.inj hbehind).2] at ht
              exact absurd ht (join_head (hl' g' (.tail _ (.head _))) s')
        | cons g₁ l =>
          cases l' with
          | nil =>
            obtain rfl | ⟨t, rfl, ht⟩ := hs'
            · cases hbehind
            · rw [show t = join (g₁ :: l) ++ s from (List.cons.inj hbehind).2.symm] at ht
              exact absurd ht (join_head (hl g₁ (.tail _ (.head _))) s)
          | cons g' l' => exact (List.cons.inj hbehind).2
      obtain ⟨rfl, rfl⟩ := ih (fun h hh => hl h (.tail _ hh)) (fun h hh => hl' h (.tail _ hh)) hrest
      exact ⟨rfl, rfl⟩

theorem ends_nil : Ends [] := .inl rfl

theorem ends_compressed (s : List Char) : Ends (':' :: ':' :: s) :=
  .inr ⟨_, rfl, by simp⟩

/-- A text has one value. -/
theorem Denotes.unique {t : List Char} {v v' : List Nat} (h : Denotes t v) (h' : Denotes t v') :
    v = v' := by
  cases h with
  | full hs hgroups hlength =>
    generalize ht : join hs = t at h'
    cases h' with
    | full hs' hgroups' hlength' =>
      obtain ⟨rfl, -⟩ := join_unique hgroups hgroups' ends_nil ends_nil (congrArg (· ++ []) ht)
      rfl
    | compressed l r hl hr hlength' =>
      rw [← List.append_nil (join hs)] at ht
      obtain ⟨-, hs⟩ := join_unique hgroups hl ends_nil (ends_compressed _) ht
      cases hs
  | compressed l r hl hr hlength =>
    generalize ht : join l ++ ':' :: ':' :: join r = t at h'
    cases h' with
    | full hs' hgroups' hlength' =>
      rw [← List.append_nil (join hs')] at ht
      obtain ⟨-, hs⟩ := join_unique hl hgroups' (ends_compressed _) ends_nil ht
      cases hs
    | compressed l' r' hl' hr' hlength' =>
      obtain ⟨rfl, hs⟩ := join_unique hl hl' (ends_compressed _) (ends_compressed _) ht
      simp only [List.cons.injEq, true_and] at hs
      obtain ⟨rfl, -⟩ := join_unique hr hr' ends_nil ends_nil (congrArg (· ++ []) hs)
      rfl

end Rfc4291

/-! ## What is written -/

namespace IpNetwork.IPv6Address

open Rfc4291

/-- `addr[i]`, as a little-endian host reads the two bytes. -/
def word (addr : IPv6Address) (i : Fin 8) : BitVec 16 :=
  addr.s6_addr[2 * i.val + 1] ++ addr.s6_addr[2 * i.val]

def words (addr : IPv6Address) : List (BitVec 16) := List.ofFn addr.word

/-- `byteswapOnLittleEndian` for 16 bits. -/
def byteswap16 (t : BitVec 16) : BitVec 16 := t.extractLsb' 0 8 ++ t.extractLsb' 8 8

/-- `std::hex`. -/
def hex (w : BitVec 16) : List Char := Nat.toDigits 16 (byteswap16 w).toNat

/-- The loop of `insert`, with `addr[i - 1]` when there is one; with `used_zeros` at the end. -/
def insertLoop : Option (BitVec 16) → Bool → List (BitVec 16) → List Char × Bool
  | _, used_zeros, [] => ([], used_zeros)
  | prev, used_zeros, w :: ws =>
    if w = 0#16 ∧ used_zeros = false then insertLoop (some w) used_zeros ws
    else if prev = some 0#16 ∧ used_zeros = false then
      let (os, used_zeros) := insertLoop (some w) true ws
      (':' :: ':' :: hex w ++ os, used_zeros)
    else
      let (os, used_zeros) := insertLoop (some w) used_zeros ws
      ((if prev = none then [] else [':']) ++ hex w ++ os, used_zeros)

/-- What is written between the brackets. -/
def body (ws : List (BitVec 16)) : List Char :=
  let (os, used_zeros) := insertLoop none false ws
  os ++ if used_zeros = false ∧ ws.getLast? = some 0#16 then [':'] else []

def port (addr : IPv6Address) : List Char := Nat.toDigits 10 (byteswap16 addr.sin6_port).toNat

/-- `insert`. -/
def insert (addr : IPv6Address) : List Char := '[' :: body addr.words ++ ']' :: ':' :: addr.port

/-- The eight groups of the address, each of two bytes in network order. -/
def groups (addr : IPv6Address) : List Nat :=
  List.ofFn fun i : Fin 8 =>
    256 * addr.s6_addr[2 * i.val].toNat + addr.s6_addr[2 * i.val + 1].toNat

/-- The first run of zeros goes on to the end. -/
def zeroTail (gs : List Nat) : Bool :=
  gs.dropWhile (· != 0) != [] && (gs.dropWhile (· != 0)).all (· == 0)

example : insert ⟨#v[0xFE, 0x80, 0, 0, 0, 0, 0, 0, 0, 0, 0, 0, 0, 0, 0, 1], 0x5000#16⟩ =
    "[fe80::1]:80".toList := by decide

/-! ### Groups -/

theorem byteswap16_append (a b : BitVec 8) : byteswap16 (a ++ b) = b ++ a := by
  rw [byteswap16, BitVec.extractLsb'_append_eq_right, BitVec.extractLsb'_append_eq_left]

theorem toNat_byteswap16 (a b : BitVec 8) :
    (byteswap16 (a ++ b)).toNat = 256 * b.toNat + a.toNat := by
  have hlt : a.toNat < 2 ^ 8 := a.isLt
  rw [byteswap16_append, BitVec.toNat_append, ← Nat.shiftLeft_add_eq_or_of_lt hlt,
    Nat.shiftLeft_eq, Nat.mul_comm]

theorem byteswap16_byteswap16 (t : BitVec 16) : byteswap16 (byteswap16 t) = t := by
  have hswap : byteswap16 t = t.extractLsb' 0 8 ++ t.extractLsb' 8 8 := rfl
  have hbytes : t.extractLsb' 8 8 ++ t.extractLsb' 0 8 = t :=
    (BitVec.extractLsb'_append_extractLsb'_eq_extractLsb' rfl).trans BitVec.extractLsb'_eq_self
  rw [hswap, byteswap16_append, hbytes]

theorem hexValue_digitChar {d : Nat} (h : d < 16) : hexValue d.digitChar = some d := by
  revert d
  decide

theorem toDigits_hex (n : Nat) :
    groupValue (Nat.toDigits 16 n) = n ∧ ∀ c ∈ Nat.toDigits 16 n, hexValue c ≠ none := by
  induction n using Nat.strong_induction_on with
  | _ n ih =>
    by_cases h : n < 16
    · rw [Nat.toDigits_of_lt_base h]
      simp [groupValue, hexValue_digitChar h]
    · obtain ⟨hvalue, hdigits⟩ := ih (n / 16) (by omega)
      have hlast := hexValue_digitChar (Nat.mod_lt n (by decide : 0 < 16))
      rw [Nat.toDigits_of_base_le (by decide) (by omega)]
      constructor
      · rw [groupValue, List.foldl_append, ← groupValue, hvalue]
        simp [hlast]
        omega
      · intro c hc
        obtain hc | hc := List.mem_append.mp hc
        · exact hdigits c hc
        · rw [List.mem_singleton.mp hc, hlast]
          simp

theorem isGroup_hex (w : BitVec 16) : IsGroup (hex w) := by
  refine ⟨Nat.toDigits_ne_nil, ?_, (toDigits_hex _).2⟩
  exact (Nat.length_toDigits_le_iff (by decide) (by decide)).mpr (byteswap16 w).isLt

theorem groupValue_hex (w : BitVec 16) : groupValue (hex w) = (byteswap16 w).toNat :=
  (toDigits_hex _).1

/-! ### The loop -/

section Loop

variable {l r ws rest : List (BitVec 16)} {w : BitVec 16} {prev : Option (BitVec 16)}

/-- Groups that others are in front of. -/
def tails (ws : List (BitVec 16)) : List Char := ws.flatMap fun w => ':' :: hex w

theorem join_hex (w : BitVec 16) (ws : List (BitVec 16)) :
    join ((w :: ws).map hex) = hex w ++ tails ws := by
  induction ws generalizing w with
  | nil => simp [join, tails]
  | cons w' ws ih =>
    have hjoin : join ((w :: w' :: ws).map hex) = hex w ++ ':' :: join ((w' :: ws).map hex) := rfl
    rw [hjoin, ih w']
    simp [tails]

/-- Behind `::` zeros are written like other groups. -/
theorem insertLoop_used (p : BitVec 16) (ws : List (BitVec 16)) :
    insertLoop (some p) true ws = (tails ws, true) := by
  induction ws generalizing p with
  | nil => rfl
  | cons w ws ih => simp [insertLoop, ih, tails]

theorem insertLoop_zeros (prev : Option (BitVec 16)) (k : Nat) (ws : List (BitVec 16)) :
    insertLoop prev false (List.replicate (k + 1) 0#16 ++ ws) = insertLoop (some 0#16) false ws := by
  induction k generalizing prev with
  | zero => rfl
  | succ k ih =>
    rw [List.replicate_succ, List.cons_append, insertLoop, if_pos ⟨rfl, rfl⟩]
    exact ih (some 0#16)

theorem insertLoop_gap (hw : w ≠ 0#16) (r : List (BitVec 16)) :
    insertLoop (some 0#16) false (w :: r) = (':' :: ':' :: join ((w :: r).map hex), true) := by
  rw [insertLoop, if_neg (by simp [hw]), if_pos ⟨rfl, rfl⟩, insertLoop_used, join_hex]
  rfl

/-- In front of a zero and at the end it does not matter what was there before. -/
theorem insertLoop_stops (hrest : ∀ w ∈ rest.head?, w = 0#16) (prev : Option (BitVec 16)) :
    insertLoop prev false rest = insertLoop none false rest := by
  cases rest with
  | nil => rfl
  | cons w rest =>
    have hw := hrest w rfl
    simp [insertLoop, hw]

theorem insertLoop_nonzero (hws : 0#16 ∉ ws) (hrest : ∀ w ∈ rest.head?, w = 0#16) {p : BitVec 16}
    (hp : p ≠ 0#16) :
    insertLoop (some p) false (ws ++ rest) =
      (tails ws ++ (insertLoop none false rest).1, (insertLoop none false rest).2) := by
  induction ws generalizing p with
  | nil =>
    rw [List.nil_append, insertLoop_stops hrest]
    rfl
  | cons w ws ih =>
    simp only [List.mem_cons, not_or] at hws
    have hw : w ≠ 0#16 := Ne.symm hws.1
    rw [List.cons_append, insertLoop, if_neg (by simp [hw]), if_neg (by simp [hp]), ih hws.2 hw]
    simp [tails]

/-- The groups in front of the first zero. -/
theorem insertLoop_leading (rest : List (BitVec 16)) (hl : 0#16 ∉ l)
    (hrest : ∀ w ∈ rest.head?, w = 0#16) :
    insertLoop none false (l ++ rest) =
      (join (l.map hex) ++ (insertLoop none false rest).1, (insertLoop none false rest).2) := by
  cases l with
  | nil => rfl
  | cons w l =>
    simp only [List.mem_cons, not_or] at hl
    have hw : w ≠ 0#16 := Ne.symm hl.1
    rw [List.cons_append, insertLoop, if_neg (by simp [hw]), if_neg (by simp),
      insertLoop_nonzero hl.2 hrest hw, join_hex]
    simp

/-- Where the first zeros are. -/
inductive Shape : List (BitVec 16) → Prop where
  | full (ws : List (BitVec 16)) (hws : 0#16 ∉ ws) : Shape ws
  | tail (l : List (BitVec 16)) (k : Nat) (hl : 0#16 ∉ l) : Shape (l ++ List.replicate (k + 1) 0#16)
  | inner (l : List (BitVec 16)) (k : Nat) (w : BitVec 16) (r : List (BitVec 16)) (hl : 0#16 ∉ l)
      (hw : w ≠ 0#16) : Shape (l ++ (List.replicate (k + 1) 0#16 ++ w :: r))

theorem shape (ws : List (BitVec 16)) : Shape ws := by
  induction ws with
  | nil => exact .full [] (by simp)
  | cons w ws ih =>
    by_cases hw : w = 0#16
    · subst hw
      cases ih with
      | full ws hws =>
        cases ws with
        | nil => exact .tail [] 0 (by simp)
        | cons w ws =>
          simp only [List.mem_cons, not_or] at hws
          exact .inner [] 0 w ws (by simp) (Ne.symm hws.1)
      | tail l k hl =>
        cases l with
        | nil => exact .tail [] (k + 1) (by simp)
        | cons w l =>
          simp only [List.mem_cons, not_or] at hl
          exact .inner [] 0 w _ (by simp) (Ne.symm hl.1)
      | inner l k w r hl hw =>
        cases l with
        | nil => exact .inner [] (k + 1) w r (by simp) hw
        | cons w' l =>
          simp only [List.mem_cons, not_or] at hl
          exact .inner [] 0 w' _ (by simp) (Ne.symm hl.1)
    · have hmem : ∀ l : List (BitVec 16), 0#16 ∉ l → 0#16 ∉ w :: l := by
        intro l hl
        simp [Ne.symm hw, hl]
      cases ih with
      | full ws hws => exact .full (w :: ws) (hmem ws hws)
      | tail l k hl => exact .tail (w :: l) k (hmem l hl)
      | inner l k w' r hl hw' => exact .inner (w :: l) k w' r (hmem l hl) hw'

theorem replicate_head (k : Nat) (ws : List (BitVec 16)) :
    ∀ w ∈ (List.replicate (k + 1) 0#16 ++ ws).head?, w = 0#16 := by
  simp [List.replicate_succ]

theorem body_full (hws : 0#16 ∉ ws) : body ws = join (ws.map hex) := by
  have hloop := insertLoop_leading [] hws (by simp)
  have hlast : ws.getLast? ≠ some 0#16 := fun h => hws (List.mem_of_getLast? h)
  rw [List.append_nil] at hloop
  simp [body, hloop, insertLoop, hlast]

theorem body_tail (hl : 0#16 ∉ l) (k : Nat) :
    body (l ++ List.replicate (k + 1) 0#16) = join (l.map hex) ++ [':'] := by
  have hzeros := insertLoop_zeros none k []
  have hloop := insertLoop_leading (List.replicate (k + 1) 0#16 ++ []) hl
    (replicate_head k [])
  rw [List.append_nil] at hzeros hloop
  simp [body, hloop, hzeros, insertLoop, List.getLast?_append, List.getLast?_replicate]

theorem body_inner (hl : 0#16 ∉ l) (k : Nat) (hw : w ≠ 0#16) (r : List (BitVec 16)) :
    body (l ++ (List.replicate (k + 1) 0#16 ++ w :: r)) =
      join (l.map hex) ++ ':' :: ':' :: join ((w :: r).map hex) := by
  have hloop := insertLoop_leading (List.replicate (k + 1) 0#16 ++ w :: r) hl
    (replicate_head k (w :: r))
  rw [insertLoop_zeros, insertLoop_gap hw] at hloop
  simp [body, hloop]

end Loop

/-! ### What the text denotes -/

section Text

variable {l r ws ws' : List (BitVec 16)} {w : BitVec 16}

def value (w : BitVec 16) : Nat := (byteswap16 w).toNat

theorem value_injective : Function.Injective value := by
  intro w w' h
  have hswap := congrArg byteswap16 (BitVec.eq_of_toNat_eq h)
  rwa [byteswap16_byteswap16, byteswap16_byteswap16] at hswap

theorem value_zero : value 0#16 = 0 := by decide

theorem value_ne_zero (hw : w ≠ 0#16) : value w ≠ 0 :=
  fun h => hw (value_injective (h.trans value_zero.symm))

theorem map_hex (ws : List (BitVec 16)) : (ws.map hex).map groupValue = ws.map value := by
  rw [List.map_map]
  apply List.map_congr_left
  intro w _
  exact groupValue_hex w

theorem isGroup_map_hex (ws : List (BitVec 16)) : ∀ h ∈ ws.map hex, IsGroup h := by
  intro h hh
  obtain ⟨w, -, rfl⟩ := List.mem_map.mp hh
  exact isGroup_hex w

theorem map_hex_injective (h : ws.map hex = ws'.map hex) : ws = ws' := by
  have hvalue := congrArg (List.map groupValue) h
  rw [map_hex, map_hex] at hvalue
  exact List.map_injective_iff.mpr value_injective hvalue

theorem groups_eq (addr : IPv6Address) : addr.groups = addr.words.map value := by
  rw [groups, words, List.map_ofFn]
  congr 1
  funext i
  exact (toNat_byteswap16 _ _).symm

theorem length_words (addr : IPv6Address) : addr.words.length = 8 := List.length_ofFn

theorem append_injective {a a' b b' : BitVec 8} (h : a ++ b = a' ++ b') : a = a' ∧ b = b' := by
  have hhigh := congrArg (BitVec.extractLsb' 8 8) h
  have hlow := congrArg (BitVec.extractLsb' 0 8) h
  rw [BitVec.extractLsb'_append_eq_left, BitVec.extractLsb'_append_eq_left] at hhigh
  rw [BitVec.extractLsb'_append_eq_right, BitVec.extractLsb'_append_eq_right] at hlow
  exact ⟨hhigh, hlow⟩

theorem words_injective {addr addr' : IPv6Address} (h : addr.words = addr'.words) :
    addr.s6_addr = addr'.s6_addr := by
  have hword := List.ofFn_injective h
  apply Vector.ext
  intro i hi
  obtain ⟨k, hk | hk⟩ : ∃ k, i = 2 * k ∨ i = 2 * k + 1 := ⟨i / 2, by omega⟩
  · subst hk
    exact (append_injective (congrFun hword ⟨k, by omega⟩)).2
  · subst hk
    exact (append_injective (congrFun hword ⟨k, by omega⟩)).1

theorem dropWhile_leading (hl : 0#16 ∉ l) (gs : List Nat) :
    (l.map value ++ gs).dropWhile (· != 0) = gs.dropWhile (· != 0) := by
  apply List.dropWhile_append_of_pos
  intro v hv
  obtain ⟨w, hw, rfl⟩ := List.mem_map.mp hv
  rw [bne_iff_ne]
  apply value_ne_zero
  rintro rfl
  exact hl hw

theorem zeroTail_full (hws : 0#16 ∉ ws) : zeroTail (ws.map value) = false := by
  have hdrop := dropWhile_leading hws []
  rw [List.append_nil] at hdrop
  simp [zeroTail, hdrop]

theorem zeroTail_tail (hl : 0#16 ∉ l) (k : Nat) :
    zeroTail ((l ++ List.replicate (k + 1) 0#16).map value) = true := by
  rw [List.map_append, zeroTail, dropWhile_leading hl]
  simp [List.replicate_succ, value_zero]

theorem zeroTail_inner (hl : 0#16 ∉ l) (k : Nat) (hw : w ≠ 0#16) (r : List (BitVec 16)) :
    zeroTail ((l ++ (List.replicate (k + 1) 0#16 ++ w :: r)).map value) = false := by
  rw [List.map_append, zeroTail, dropWhile_leading hl]
  simp [List.replicate_succ, value_zero, value_ne_zero hw]

/-- A colon at the end is in no form of the text. -/
theorem not_denotes_tail (l : List (BitVec 16)) (v : List Nat) :
    ¬Denotes (join (l.map hex) ++ [':']) v := by
  have hends : Ends [':'] := .inr ⟨[], rfl, by simp⟩
  intro h
  generalize ht : join (l.map hex) ++ [':'] = t at h
  cases h with
  | full hs hgroups hlength =>
    rw [← List.append_nil (join hs)] at ht
    obtain ⟨-, hs⟩ := join_unique (isGroup_map_hex l) hgroups hends ends_nil ht
    cases hs
  | compressed l' r hl hr hlength =>
    obtain ⟨-, hs⟩ := join_unique (isGroup_map_hex l) hl hends (ends_compressed _) ht
    cases hs

/-- The text denotes the groups unless they end in their first zeros. -/
theorem denotes_body (hlength : ws.length = 8) :
    (∀ v, Denotes (body ws) v ↔ v = ws.map value) ↔ zeroTail (ws.map value) = false := by
  have hone : Denotes (body ws) (ws.map value) →
      ∀ v, Denotes (body ws) v ↔ v = ws.map value := by
    intro hdenotes v
    constructor
    · exact fun h => h.unique hdenotes
    · rintro rfl
      exact hdenotes
  cases shape ws with
  | full ws hws =>
    apply iff_of_true (hone ?_) (zeroTail_full hws)
    have hfull := Denotes.full (ws.map hex) (isGroup_map_hex ws) (by simpa using hlength)
    rwa [map_hex, ← body_full hws] at hfull
  | tail l k hl =>
    rw [zeroTail_tail hl]
    apply iff_of_false
    · intro h
      have hdenotes := (h _).mpr rfl
      rw [body_tail hl] at hdenotes
      exact not_denotes_tail l _ hdenotes
    · simp
  | inner l k w r hl hw =>
    apply iff_of_true (hone ?_) (zeroTail_inner hl k hw r)
    simp only [List.length_append, List.length_replicate, List.length_cons] at hlength
    have hcompressed := Denotes.compressed (l.map hex) ((w :: r).map hex) (isGroup_map_hex l)
      (isGroup_map_hex _) (by simp; omega)
    have hzeros : 8 - ((l.map hex).length + ((w :: r).map hex).length) = k + 1 := by
      simp
      omega
    rw [map_hex, map_hex, hzeros, ← body_inner hl k hw r] at hcompressed
    simpa [value_zero] using hcompressed

/-- The groups in front of the first zeros and what follows these give all eight. -/
theorem body_parts (hlength : ws.length = 8) :
    ∃ l s r, body ws = join (l.map hex) ++ s ∧ Ends s ∧
      ws = l ++ (List.replicate (8 - (l.length + r.length)) 0#16 ++ r) ∧
      (s = [] ∧ r = [] ∨ s = [':'] ∧ r = [] ∨ s = ':' :: ':' :: join (r.map hex)) := by
  cases shape ws with
  | full ws hws =>
    refine ⟨ws, [], [], ?_, ends_nil, ?_, .inl ⟨rfl, rfl⟩⟩
    · rw [body_full hws, List.append_nil]
    · simp [hlength]
  | tail l k hl =>
    refine ⟨l, [':'], [], body_tail hl k, .inr ⟨[], rfl, by simp⟩, ?_, .inr (.inl ⟨rfl, rfl⟩)⟩
    have hzeros : 8 - (l.length + ([] : List (BitVec 16)).length) = k + 1 := by
      simp at hlength ⊢
      omega
    rw [hzeros, List.append_nil]
  | inner l k w r hl hw =>
    refine ⟨l, _, w :: r, body_inner hl k hw r, ends_compressed _, ?_, .inr (.inr rfl)⟩
    have hzeros : 8 - (l.length + (w :: r).length) = k + 1 := by
      simp at hlength ⊢
      omega
    rw [hzeros]

/-- In every case the text gives the groups back. -/
theorem body_injective (hlength : ws.length = 8) (hlength' : ws'.length = 8)
    (h : body ws = body ws') : ws = ws' := by
  obtain ⟨l, s, r, hbody, hends, hws, hs⟩ := body_parts hlength
  obtain ⟨l', s', r', hbody', hends', hws', hs'⟩ := body_parts hlength'
  rw [hbody, hbody'] at h
  obtain ⟨hl, rfl⟩ := join_unique (isGroup_map_hex l) (isGroup_map_hex l') hends hends' h
  have hr : r = r' := by
    obtain ⟨rfl, rfl⟩ | ⟨rfl, rfl⟩ | rfl := hs
    · obtain ⟨-, rfl⟩ | ⟨hs, -⟩ | hs := hs'
      · rfl
      · cases hs
      · cases hs
    · obtain ⟨hs, -⟩ | ⟨-, rfl⟩ | hs := hs'
      · cases hs
      · rfl
      · cases hs
    · obtain ⟨hs, -⟩ | ⟨hs, -⟩ | hs := hs'
      · cases hs
      · cases hs
      · simp only [List.cons.injEq, true_and] at hs
        obtain ⟨hr, -⟩ := join_unique (isGroup_map_hex r) (isGroup_map_hex r') ends_nil ends_nil
          (congrArg (· ++ []) hs)
        exact map_hex_injective hr
  rw [hws, hws', map_hex_injective hl, hr]

theorem mem_join {c : Char} {hs : List (List Char)} (h : c ∈ join hs) :
    c = ':' ∨ ∃ g ∈ hs, c ∈ g := by
  induction hs with
  | nil => simp [join] at h
  | cons g hs ih =>
    have hjoin := join_cons g hs []
    rw [List.append_nil] at hjoin
    rw [hjoin, List.mem_append, behind] at h
    obtain h | h := h
    · exact .inr ⟨g, .head _, h⟩
    · split at h
      · simp at h
      · rw [List.append_nil, List.mem_cons] at h
        obtain rfl | h := h
        · exact .inl rfl
        · obtain rfl | ⟨g', hg', hc⟩ := ih h
          · exact .inl rfl
          · exact .inr ⟨g', .tail _ hg', hc⟩

theorem bracket_not_mem_join (ws : List (BitVec 16)) : ']' ∉ join (ws.map hex) := by
  intro h
  obtain hcolon | ⟨g, hg, hmem⟩ := mem_join h
  · simp at hcolon
  · exact (isGroup_map_hex ws g hg).2.2 ']' hmem (by decide)

theorem bracket_not_mem_body (hlength : ws.length = 8) : ']' ∉ body ws := by
  obtain ⟨l, s, r, hbody, -, -, hs⟩ := body_parts hlength
  have hl := bracket_not_mem_join l
  have hr := bracket_not_mem_join r
  rw [hbody]
  obtain ⟨rfl, -⟩ | ⟨rfl, -⟩ | rfl := hs <;> simp [hl, hr]

/-- Addresses with the same text are the same. -/
theorem insert_injective : Function.Injective insert := by
  intro addr addr' h
  rw [insert, insert, List.cons_append, List.cons_append, List.cons.injEq] at h
  obtain ⟨hbody, hport⟩ := Substrings.cut_unique (bracket_not_mem_body (length_words addr))
    (bracket_not_mem_body (length_words addr')) (by simp) (by simp) h.2
  have hwords := body_injective (length_words addr) (length_words addr') hbody
  have hdigits : addr.port = addr'.port := by simpa using hport
  have hvalue := congrArg (Nat.ofDigitChars 10 · 0) hdigits
  simp only [port, Nat.ofDigitChars_ten_toDigits] at hvalue
  have hswap := congrArg byteswap16 (BitVec.eq_of_toNat_eq hvalue)
  rw [byteswap16_byteswap16, byteswap16_byteswap16] at hswap
  cases addr
  cases addr'
  simp only [mk.injEq]
  exact ⟨words_injective hwords, hswap⟩

/-- The text stands for the address unless its last groups are zeros and its first zeros, and no
two addresses have one text. -/
theorem insert_denotes_iff (addr : IPv6Address) :
    ((∃ t, addr.insert = '[' :: t ++ ']' :: ':' :: addr.port ∧
        ∀ v, Denotes t v ↔ v = addr.groups) ↔ zeroTail addr.groups = false) ∧
      Function.Injective insert := by
  constructor
  · rw [groups_eq, ← denotes_body (length_words addr)]
    constructor
    · rintro ⟨t, ht, hdenotes⟩
      have hsame : body addr.words = t := by
        rw [insert, List.cons_append, List.cons_append, List.cons.injEq] at ht
        exact List.append_cancel_right ht.2
      rw [hsame]
      exact hdenotes
    · intro hdenotes
      exact ⟨body addr.words, rfl, hdenotes⟩
  · exact insert_injective

/-- The address 1::, which is written `1:`. -/
theorem insert_one_colon :
    insert ⟨#v[0, 1, 0, 0, 0, 0, 0, 0, 0, 0, 0, 0, 0, 0, 0, 0], 0x5000#16⟩ = "[1:]:80".toList ∧
      ∀ v, ¬Denotes "1:".toList v :=
  ⟨by decide, not_denotes_tail [0x0100#16]⟩

end Text

end IpNetwork.IPv6Address

end CxkFramework
