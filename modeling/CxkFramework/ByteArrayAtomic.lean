import CxkFramework.ByteArrayRead
import CxkFramework.ByteArrayRoundTrip

/-!
# What a read that throws leaves behind

An exception does not take back what was read before it, so a typed read is followed here
with the array it leaves in every case. `read` itself throws before it moves. A read of one
chunk is as good as that; a varint has consumed the bytes before the missing one, and a
string its length.
-/

namespace CxkFramework.ByteArray

open Words Blocks Runs

/-! ## The families, with the array they leave -/

def attemptRead (ba : ByteArray) (size : Nat) : Except Fault (List UInt8) × ByteArray :=
  match ba.read size with
  | .ok (bytes, ba') => (.ok bytes, ba')
  | .error e => (.error e, ba)

def attemptWord (ba : ByteArray) (n : Nat) : Except Fault Nat × ByteArray :=
  match ba.attemptRead n with
  | (.error e, ba') => (.error e, ba')
  | (.ok bytes, ba') => (.ok (unswap ba.endian n bytes), ba')

def attemptGroups (w : Nat) : Nat → Nat → Nat → ByteArray → Except Fault Nat × ByteArray
  | 0, _, result, ba => (.ok result, ba)
  | rounds + 1, i, result, ba =>
    match ba.attemptRead 1 with
    | (.error e, ba') => (.error e, ba')
    | (.ok bytes, ba') =>
      let b := (UInt8.ofNat (leValue bytes)).toNat
      if b < 0x80 then (.ok (result ||| (b <<< i) % 2 ^ w), ba')
      else attemptGroups w rounds (i + 7) (result ||| ((b &&& 0x7F) <<< i) % 2 ^ w) ba'

/-- A length that `resize` refuses is longer than what is left, so `read` would throw too. -/
def attemptString (ba : ByteArray) (n : Nat) : Except Fault (List UInt8) × ByteArray :=
  match ba.attemptWord n with
  | (.error e, ba') => (.error e, ba')
  | (.ok len, ba') => ba'.attemptRead len

/-- The number and the body of what is read. -/
def attempt (ba : ByteArray) : Shape → Except Fault (Nat × List UInt8) × ByteArray
  | .word n => let (r, ba') := ba.attemptWord n; (r.map (fun x => (x, [])), ba')
  | .groups w rounds =>
    let (r, ba') := attemptGroups w rounds 0 0 ba
    (r.map (fun x => (x, [])), ba')
  | .string n => let (r, ba') := ba.attemptString n; (r.map (fun s => (0, s)), ba')

/-- The reads of the header. -/
inductive ReadOp where
  | typed (k : Kind)
  | float
  | double
  | stringF16
  deriving DecidableEq, Repr

def ReadOp.shape : ReadOp → Shape
  | .typed k => k.shape
  | .float => .word 4
  | .double => .word 8
  | .stringF16 => .string 2

/-- If the read throws, the array is what it was. A null pointer that is followed is no
exception: nothing is left to look at. -/
def ThrowsCleanly (ba : ByteArray) (op : ReadOp) : Prop :=
  ∀ what, (ba.attempt op.shape).1 = .error (.outOfRange what) → (ba.attempt op.shape).2 = ba

/-! ## The same operations -/

theorem readLoop_length_le {ns : List Node} {npos ncap n hops : Nat} {bytes : List UInt8}
    (h : readLoop ns npos ncap n = .ok (bytes, hops)) : bytes.length ≤ n := by
  induction ns generalizing npos n bytes hops with
  | nil =>
    cases n with
    | zero => cases h; simp
    | succ n => rw [readLoop] at h; cases h
  | cons node rest ih =>
    rcases Nat.eq_zero_or_pos n with rfl | hn
    · rw [readLoop_zero] at h
      cases h
      simp
    by_cases hin : n ≤ ncap
    · rw [readLoop_within node rest npos ncap hn hin] at h
      cases h
      simp [slice]
    · rw [readLoop_next node rest npos ncap (by omega)] at h
      obtain ⟨⟨bytes', hops'⟩, hloop, h⟩ := bind_eq_ok.mp h
      cases h
      have hrest := ih hloop
      have hfirst : (slice node npos ncap).length ≤ ncap := by simp [slice]
      rw [List.length_append]
      omega

theorem read_length_le {ba ba' : ByteArray} {n : Nat} {bytes : List UInt8}
    (h : ba.read n = .ok (bytes, ba')) : bytes.length ≤ n := by
  rw [read] at h
  split at h
  · cases h
  · obtain ⟨p, -, h⟩ := bind_eq_ok.mp h
    obtain ⟨⟨bytes', hops⟩, hloop, h⟩ := bind_eq_ok.mp h
    cases h
    exact readLoop_length_le hloop

/-- A word of `n` bytes is read as a number of that size. -/
theorem unswap_read_lt {ba ba' : ByteArray} {n : Nat} {bytes : List UInt8}
    (h : ba.read n = .ok (bytes, ba')) (endian : Endian) : unswap endian n bytes < 256 ^ n := by
  rw [unswap]
  split
  · exact (leValue_lt bytes).trans_le (Nat.pow_le_pow_right (by decide) (read_length_le h))
  · exact byteswap_lt _ _

/-- Forget the array that an error leaves. -/
def settle {α : Type} : Except Fault α × ByteArray → Except Fault (α × ByteArray)
  | (.ok a, ba) => .ok (a, ba)
  | (.error e, _) => .error e

@[simp] theorem settle_ok {α : Type} (a : α) (ba : ByteArray) :
    settle ((.ok a, ba) : Except Fault α × ByteArray) = .ok (a, ba) := rfl

@[simp] theorem settle_error {α : Type} (e : Fault) (ba : ByteArray) :
    settle ((.error e, ba) : Except Fault α × ByteArray) = .error e := rfl

theorem settle_attemptRead (ba : ByteArray) (size : Nat) :
    settle (ba.attemptRead size) = ba.read size := by
  rw [attemptRead]
  cases ba.read size <;> rfl

theorem settle_attemptWord (ba : ByteArray) (n : Nat) :
    settle (ba.attemptWord n) = (do
      let (bytes, ba') ← ba.read n
      .ok (unswap ba.endian n bytes, ba')) := by
  rw [attemptWord, attemptRead]
  cases ba.read n <;> rfl

theorem settle_attemptGroups (w rounds i result : Nat) (ba : ByteArray) :
    settle (attemptGroups w rounds i result ba) = ungroup readFuint8 w rounds i result ba := by
  induction rounds generalizing i result ba with
  | zero => rfl
  | succ rounds ih =>
    rw [attemptGroups, ungroup, readFuint8, attemptRead]
    cases hread : ba.read 1 with
    | error e => rfl
    | ok r =>
      simp only [ok_bind]
      split
      · rfl
      · exact ih _ _ _

theorem settle_attemptString (ba : ByteArray) (n : Nat) :
    settle (ba.attemptString n) = (do
      let (head, ba₁) ← ba.read n
      ba₁.read (unswap ba.endian n head)) := by
  rw [attemptString, attemptWord, attemptRead]
  cases ba.read n with
  | error e => rfl
  | ok r => exact settle_attemptRead r.2 _

/-- What each read returns when it returns, in the words of the other modules. -/
theorem settle_attempt_typed (ba : ByteArray) (k : Kind) :
    ba.readValue k = (do
      let ((x, s), ba') ← settle (ba.attempt k.shape)
      .ok (k.toValue x s, ba')) := by
  cases hshape : k.shape with
  | word n =>
    rw [readValue_word hshape, attempt, attemptWord, attemptRead]
    cases ba.read n <;> rfl
  | groups w rounds =>
    rw [readValue_groups hshape, readGroups, attempt, ← settle_attemptGroups]
    cases h : attemptGroups w rounds 0 0 ba with
    | mk r ba' => cases r <;> rfl
  | string n =>
    rw [readValue_string hshape, attempt, attemptString, attemptWord, attemptRead]
    cases hread : ba.read n with
    | error e => rfl
    | ok r =>
      have hlt := unswap_read_lt (show ba.read n = .ok (r.1, r.2) from hread) ba.endian
      simp only [ok_bind, Nat.mod_eq_of_lt hlt]
      rw [← settle_attemptRead]
      cases h : r.2.attemptRead (unswap ba.endian n r.1) with
      | mk body ba' => cases body <;> rfl

theorem settle_attempt_float (ba : ByteArray) : ba.readFloat = (do
    let ((x, _), ba') ← settle (ba.attempt ReadOp.float.shape)
    .ok (UInt32.ofNat x, ba')) := by
  rw [readFloat, readFuint32, readFixed, ReadOp.shape, attempt, attemptWord, attemptRead]
  cases ba.read 4 <;> rfl

theorem settle_attempt_double (ba : ByteArray) : ba.readDouble = (do
    let ((x, _), ba') ← settle (ba.attempt ReadOp.double.shape)
    .ok (UInt64.ofNat x, ba')) := by
  rw [readDouble, readFuint64, readFixed, ReadOp.shape, attempt, attemptWord, attemptRead]
  cases ba.read 8 <;> rfl

theorem settle_attempt_stringF16 (ba : ByteArray) : ba.readStringF16 = (do
    let ((_, s), ba') ← settle (ba.attempt ReadOp.stringF16.shape)
    .ok (s, ba')) := by
  rw [readStringF16, readFuint16, readFixed, ReadOp.shape, attempt, attemptString, attemptWord,
    attemptRead]
  cases hread : ba.read 2 with
  | error e => rfl
  | ok r =>
    have hlt := unswap_read_lt (show ba.read 2 = .ok (r.1, r.2) from hread) ba.endian
    have hlen : (UInt16.ofNat (unswap ba.endian 2 r.1)).toNat = unswap ba.endian 2 r.1 := by
      rw [UInt16.toNat_ofNat']
      exact Nat.mod_eq_of_lt hlt
    simp only [ok_bind]
    rw [← unswap, hlen, ← settle_attemptRead]
    cases h : r.2.attemptRead (unswap ba.endian 2 r.1) with
    | mk body ba' => cases body <;> rfl

/-! ## One chunk -/

variable {ba : ByteArray}

theorem attemptRead_clean {size : Nat} {what : String}
    (h : (ba.attemptRead size).1 = .error (.outOfRange what)) : (ba.attemptRead size).2 = ba := by
  rw [attemptRead] at h ⊢
  cases hread : ba.read size with
  | error e => rfl
  | ok r =>
    rw [hread] at h
    cases h

theorem attemptWord_clean {n : Nat} {what : String}
    (h : (ba.attemptWord n).1 = .error (.outOfRange what)) : (ba.attemptWord n).2 = ba := by
  rw [attemptWord] at h ⊢
  cases hread : ba.attemptRead n with
  | mk r ba' =>
    rw [hread] at h
    cases r with
    | error e =>
      cases h
      have hclean := attemptRead_clean (show (ba.attemptRead n).1 = _ by rw [hread])
      rwa [hread] at hclean
    | ok bytes => cases h

theorem readLoop_error {ns : List Node} {npos ncap n : Nat} {e : Fault}
    (h : readLoop ns npos ncap n = .error e) : e = .nullNode := by
  induction ns generalizing npos n with
  | nil =>
    cases n with
    | zero => cases h
    | succ n => rw [readLoop] at h; cases h; rfl
  | cons node rest ih =>
    rcases Nat.eq_zero_or_pos n with rfl | hn
    · rw [readLoop_zero] at h
      cases h
    by_cases hin : n ≤ ncap
    · rw [readLoop_within node rest npos ncap hn hin] at h
      cases h
    · rw [readLoop_next node rest npos ncap (by omega)] at h
      cases hloop : readLoop rest 0 ncap (n - ncap) with
      | error e' =>
        rw [hloop] at h
        cases h
        exact ih hloop
      | ok r =>
        rw [hloop] at h
        cases h

theorem deref_error {e : Fault} (h : ba.deref = .error e) : e = .nullNode := by
  rw [deref] at h
  split at h
  · cases h
    rfl
  · split at h
    · cases h
      rfl
    · cases h

/-- `read` throws for its length only. -/
theorem read_throws_iff {size : Nat} :
    (∃ what, ba.read size = .error (.outOfRange what)) ↔ ba.getReadSize < size := by
  constructor
  · rintro ⟨what, h⟩
    by_contra hge
    rw [read, if_neg (by omega)] at h
    cases hd : ba.deref with
    | error e =>
      have hnull := deref_error hd
      rw [hd, error_bind, hnull] at h
      cases h
    | ok p =>
      simp only [hd, ok_bind] at h
      cases hloop : readLoop (ba.nodes.drop p.1) (ba.position % ba.baseSize)
          (p.2.length - ba.position % ba.baseSize) size with
      | error e =>
        have hnull := readLoop_error hloop
        rw [hloop, error_bind, hnull] at h
        cases h
      | ok r =>
        rw [hloop] at h
        cases h
  · intro h
    exact ⟨_, by rw [read, if_pos h]⟩

/-! ## Varints -/

/-- The byte stored at a position. -/
def byteAt (ba : ByteArray) (p : Nat) : UInt8 := ba.content[p]?.getD 0

/-- The array after one byte. -/
theorem read_byte (hs : Shaped ba) (hr : RepInv ba) (h : 0 < ba.getReadSize) :
    ∃ ba', ba.read 1 = .ok ([ba.byteAt ba.position], ba') ∧ Shaped ba' ∧ RepInv ba' ∧
      ba'.position = ba.position + 1 ∧ ba'.size = ba.size ∧ ba'.content = ba.content := by
  have hoff := hs.offset_lt
  have hst : Straight ba (ba.position / ba.baseSize) ba.position 1 :=
    ⟨rfl, .inr (by omega)⟩
  have hread := (readsRange_iff hs hr 1).mpr (.inr (.inr ⟨Nat.one_pos, .inl hst⟩))
  rw [ReadsRange, if_pos (by omega)] at hread
  obtain ⟨hs', hr'⟩ := read_keeps_iff hs hr hread
  have hbyte : slice ba.content ba.position 1 = [ba.byteAt ba.position] := by
    have hlen : ba.position < ba.content.length := by
      have := hr.add_le_length hs (p := ba.position) (n := 1) (by rw [getReadSize] at h; omega)
      omega
    rw [slice, List.take_one, List.head?_drop, byteAt, List.getElem?_eq_getElem hlen]
    rfl
  rw [hbyte] at hread
  exact ⟨_, hread, hs', hr'.mpr (hst.readKeeps hs), rfl, rfl, rfl⟩

/-- The data ends inside a varint: there are fewer bytes than rounds, and each of them says
that another one follows. -/
def EndsInVarint (ba : ByteArray) (rounds : Nat) : Prop :=
  ba.getReadSize < rounds ∧
    ∀ j < ba.getReadSize, 0x80 ≤ (ba.byteAt (ba.position + j)).toNat

theorem attemptRead_byte {b : UInt8} {ba' : ByteArray} (h : ba.read 1 = .ok ([b], ba')) :
    ba.attemptRead 1 = (.ok [b], ba') := by
  rw [attemptRead, h]

@[simp] theorem ofNat_leValue_singleton (b : UInt8) : UInt8.ofNat (leValue [b]) = b := by
  simp [leValue]

/-- What is left of the data after one of its bytes. -/
theorem endsInVarint_succ {ba' : ByteArray} {rounds : Nat} (h0 : 0 < ba.getReadSize)
    (hp : ba'.position = ba.position + 1) (hz : ba'.size = ba.size)
    (hc : ba'.content = ba.content) :
    EndsInVarint ba (rounds + 1) ↔
      0x80 ≤ (ba.byteAt ba.position).toNat ∧ EndsInVarint ba' rounds := by
  have hsize : ba.getReadSize = ba'.getReadSize + 1 := by
    rw [getReadSize] at h0 ⊢
    rw [getReadSize, hp, hz]
    omega
  have hbyte : ∀ j, ba'.byteAt (ba'.position + j) = ba.byteAt (ba.position + (j + 1)) := by
    intro j
    rw [byteAt, byteAt, hc, hp, Nat.add_assoc, Nat.add_comm 1 j]
  simp only [EndsInVarint, hsize, hbyte, Nat.add_lt_add_iff_right]
  constructor
  · rintro ⟨hlt, hall⟩
    exact ⟨hall 0 (Nat.succ_pos _), hlt, fun j hj => hall (j + 1) (by omega)⟩
  · rintro ⟨hfirst, hlt, hall⟩
    refine ⟨hlt, fun j hj => ?_⟩
    cases j with
    | zero => exact hfirst
    | succ j => exact hall j (by omega)

/-- Reading such a varint throws behind the last byte. -/
theorem attemptGroups_throws (w i result : Nat) {rounds : Nat} (hs : Shaped ba) (hr : RepInv ba)
    (h : EndsInVarint ba rounds) :
    ∃ ba', attemptGroups w rounds i result ba = (.error (.outOfRange "not enough len"), ba') ∧
      ba'.position = ba.position + ba.getReadSize ∧ (ba.getReadSize = 0 → ba' = ba) := by
  induction rounds generalizing ba i result with
  | zero => exact absurd h.1 (Nat.not_lt_zero _)
  | succ rounds ih =>
    rcases Nat.eq_zero_or_pos ba.getReadSize with h0 | hpos
    · refine ⟨ba, ?_, by omega, fun _ => rfl⟩
      rw [attemptGroups, attemptRead, read, if_pos (by omega)]
    · obtain ⟨ba₁, hread, hs₁, hr₁, hp, hz, hc⟩ := read_byte hs hr hpos
      obtain ⟨hfirst, hrest⟩ := (endsInVarint_succ hpos hp hz hc).mp h
      obtain ⟨ba', hok, hpos', -⟩ := ih (i + 7) _ hs₁ hr₁ hrest
      refine ⟨ba', ?_, ?_, by omega⟩
      · rw [attemptGroups, attemptRead_byte hread]
        simp only [ofNat_leValue_singleton, if_neg (Nat.not_lt.mpr hfirst)]
        exact hok
      · rw [hpos', getReadSize, getReadSize, hp, hz]
        rw [getReadSize] at hpos
        omega

/-- Any other varint can be read. -/
theorem attemptGroups_returns (w i result : Nat) {rounds : Nat} (hs : Shaped ba) (hr : RepInv ba)
    (h : ¬EndsInVarint ba rounds) : ∃ x, (attemptGroups w rounds i result ba).1 = .ok x := by
  induction rounds generalizing ba i result with
  | zero => exact ⟨result, rfl⟩
  | succ rounds ih =>
    rcases Nat.eq_zero_or_pos ba.getReadSize with h0 | hpos
    · refine absurd ⟨by omega, fun j hj => ?_⟩ h
      omega
    · obtain ⟨ba₁, hread, hs₁, hr₁, hp, hz, hc⟩ := read_byte hs hr hpos
      rw [endsInVarint_succ hpos hp hz hc] at h
      rw [attemptGroups, attemptRead_byte hread]
      simp only [ofNat_leValue_singleton]
      split
      · exact ⟨_, rfl⟩
      · next hge => exact ih _ _ hs₁ hr₁ fun hrest => h ⟨Nat.not_lt.mp hge, hrest⟩

/-! ## Strings -/

/-- The bytes a read of `n` bytes at the cursor collects. -/
def foundBytes (ba : ByteArray) (n : Nat) : List UInt8 :=
  (List.range n).map (fun j => ba.byteAt (ba.baseSize * (ba.position / ba.baseSize) +
    staleOffset ba.baseSize (ba.position % ba.baseSize) j))

theorem Walked.eq_foundBytes {n : Nat} {bytes : List UInt8}
    (h : Walked ba (ba.position / ba.baseSize) n bytes) : bytes = foundBytes ba n := by
  apply List.ext_getElem?
  intro j
  rw [foundBytes, List.getElem?_map]
  rcases Nat.lt_or_ge j n with hj | hj
  · have hb := h.getElem?_eq j hj
    have hlen := h.length_eq
    rw [List.getElem?_eq_getElem (by omega)] at hb
    rw [List.getElem?_range hj, Option.map_some, byteAt, ← hb, Option.getD_some,
      List.getElem?_eq_getElem]
  · have hlen := h.length_eq
    rw [List.getElem?_eq_none (by omega), List.getElem?_eq_none (by rw [List.length_range]; omega)]
    rfl

/-- The length of a string can be read and says more than there is behind it. -/
def EndsInString (ba : ByteArray) (n : Nat) : Prop :=
  n ≤ ba.getReadSize ∧
    n ≤ (ba.baseSize - ba.position % ba.baseSize) *
      (ba.nodes.length - ba.position / ba.baseSize) ∧
    ba.getReadSize - n < unswap ba.endian n (foundBytes ba n)

theorem attemptWord_found {n : Nat} (hs : Shaped ba) (hr : RepInv ba) (hn : 0 < n)
    (hle : n ≤ ba.getReadSize)
    (hlasts : n ≤ (ba.baseSize - ba.position % ba.baseSize) *
      (ba.nodes.length - ba.position / ba.baseSize)) :
    ∃ hops, ba.attemptWord n = (.ok (unswap ba.endian n (foundBytes ba n)),
      ba.advanced (ba.position / ba.baseSize) hops n) := by
  obtain ⟨bytes, hread, hw⟩ := read_ok hs (hr.cur_eq_nodePtr hs) hn hle hlasts
  refine ⟨readHops ba.baseSize (ba.position % ba.baseSize) n, ?_⟩
  rw [attemptWord, attemptRead, hread, hw.eq_foundBytes]

/-- The read of the body then throws, and the length is gone. -/
theorem attemptString_throws {n : Nat} (hs : Shaped ba) (hr : RepInv ba) (hn : 0 < n)
    (h : EndsInString ba n) :
    ∃ ba', ba.attemptString n = (.error (.outOfRange "not enough len"), ba') ∧
      ba'.position = ba.position + n := by
  obtain ⟨hle, hlasts, hlen⟩ := h
  obtain ⟨hops, hword⟩ := attemptWord_found hs hr hn hle hlasts
  have hleft : (ba.advanced (ba.position / ba.baseSize) hops n).getReadSize = ba.getReadSize - n := by
    rw [getReadSize, getReadSize, Nat.sub_sub]
    rfl
  refine ⟨ba.advanced (ba.position / ba.baseSize) hops n, ?_, rfl⟩
  rw [attemptString, hword]
  simp only [attemptRead, read, hleft, gt_iff_lt, hlen, if_true]

theorem attemptString_clean {n : Nat} (hs : Shaped ba) (hr : RepInv ba)
    (h : ¬EndsInString ba n) {what : String}
    (hthrow : (ba.attemptString n).1 = .error (.outOfRange what)) :
    (ba.attemptString n).2 = ba := by
  rw [attemptString] at hthrow ⊢
  cases hword : ba.attemptWord n with
  | mk r ba₁ =>
    rw [hword] at hthrow
    cases r with
    | error e =>
      cases hthrow
      have hclean := attemptWord_clean (show (ba.attemptWord n).1 = _ by rw [hword])
      rwa [hword] at hclean
    | ok len =>
      -- the length was read, so the body must be there
      have hread := settle_attemptWord ba n
      rw [hword, settle_ok] at hread
      obtain ⟨⟨bytes, ba'⟩, hread, hres⟩ := bind_eq_ok.mp hread.symm
      cases hres
      obtain ⟨hle, -, hlasts, hw, hba⟩ := read_inv hs (hr.cur_eq_nodePtr hs) hread
      have hleft : ba₁.getReadSize = ba.getReadSize - n := by
        rw [hba, getReadSize, getReadSize, Nat.sub_sub]
        rfl
      have hshort : ba₁.getReadSize < unswap ba.endian n bytes := by
        have hbody : (ba₁.attemptRead (unswap ba.endian n bytes)).1 =
          .error (.outOfRange what) := hthrow
        have hsettle := settle_attemptRead ba₁ (unswap ba.endian n bytes)
        rw [← Prod.mk.eta (p := ba₁.attemptRead (unswap ba.endian n bytes)), hbody,
          settle_error] at hsettle
        exact read_throws_iff.mp ⟨what, hsettle.symm⟩
      rw [hleft, hw.eq_foundBytes] at hshort
      exact absurd ⟨hle, hlasts, hshort⟩ h

/-! ## All reads -/

/-- When a read that throws leaves the array alone. One chunk of bytes always does, a varint
unless bytes of it were read, a string unless its length was. -/
def Shape.Clean (ba : ByteArray) : Shape → Prop
  | .word _ => True
  | .groups _ rounds => ba.getReadSize = 0 ∨ ¬EndsInVarint ba rounds
  | .string n => ¬EndsInString ba n

theorem error_of_map_error {α β : Type} {r : Except Fault α} {f : α → β} {e : Fault}
    (h : r.map f = .error e) : r = .error e := by
  cases r with
  | error e' => cases h; rfl
  | ok a => cases h

theorem ReadOp.string_pos {op : ReadOp} {n : Nat} (h : op.shape = .string n) : 0 < n := by
  cases op with
  | typed k => cases k <;> cases h <;> decide
  | stringF16 => cases h; decide
  | float => cases h
  | double => cases h

theorem throwsCleanly_groups_iff {w rounds : Nat} (hs : Shaped ba) (hr : RepInv ba) :
    (∀ what, (attemptGroups w rounds 0 0 ba).1 = .error (.outOfRange what) →
      (attemptGroups w rounds 0 0 ba).2 = ba) ↔
      ba.getReadSize = 0 ∨ ¬EndsInVarint ba rounds := by
  by_cases hend : EndsInVarint ba rounds
  · obtain ⟨ba', hthrow, hpos, hsame⟩ := attemptGroups_throws w 0 0 hs hr hend
    simp only [hthrow, hend, not_true_eq_false, or_false]
    constructor
    · intro h
      have hba : ba' = ba := h _ rfl
      rw [hba] at hpos
      omega
    · intro h0 _ _
      exact hsame h0
  · obtain ⟨x, hok⟩ := attemptGroups_returns w 0 0 hs hr hend
    simp [hok, hend]

theorem throwsCleanly_string_iff {n : Nat} (hs : Shaped ba) (hr : RepInv ba) (hn : 0 < n) :
    (∀ what, (ba.attemptString n).1 = .error (.outOfRange what) →
      (ba.attemptString n).2 = ba) ↔ ¬EndsInString ba n := by
  constructor
  · intro h hend
    obtain ⟨ba', hthrow, hpos⟩ := attemptString_throws hs hr hn hend
    rw [hthrow] at h
    have hba : ba' = ba := h _ rfl
    rw [hba] at hpos
    omega
  · intro h what
    exact attemptString_clean hs hr h

/-- Every read, exactly. -/
theorem throwsCleanly_iff (hs : Shaped ba) (hr : RepInv ba) (op : ReadOp) :
    ThrowsCleanly ba op ↔ op.shape.Clean ba := by
  cases hshape : op.shape with
  | word n =>
    refine iff_of_true ?_ trivial
    intro what h
    rw [hshape] at h ⊢
    exact attemptWord_clean (error_of_map_error h)
  | groups w rounds =>
    rw [Shape.Clean, ← throwsCleanly_groups_iff (w := w) hs hr, ThrowsCleanly, hshape]
    refine forall_congr' fun what => ?_
    rw [attempt]
    exact imp_congr_left ⟨error_of_map_error, fun h => by simp only [h]; rfl⟩
  | string n =>
    rw [Shape.Clean, ← throwsCleanly_string_iff hs hr (op.string_pos hshape), ThrowsCleanly, hshape]
    refine forall_congr' fun what => ?_
    rw [attempt]
    exact imp_congr_left ⟨error_of_map_error, fun h => by simp only [h]; rfl⟩

/-- The first of the eight bytes is a varint of its own. -/
theorem throwsCleanly_uint64 : ThrowsCleanly (eightBytes 0) (.typed .uint64) := by
  refine (throwsCleanly_iff (shaped_eightBytes 0) (repInv_eightBytes (by decide)) _).mpr (.inr ?_)
  intro h
  exact absurd (h.2 0 (by decide)) (by decide)

/-- The length `0x00010203` is read, then the read throws and has used up four bytes. -/
theorem readStringF32_keeps_prefix : Shaped (eightBytes 0) ∧ RepInv (eightBytes 0) ∧
    (eightBytes 0).attempt (ReadOp.typed .stringF32).shape =
      (.error (.outOfRange "not enough len"), { eightBytes 4 with cur := some 1 }) ∧
    ¬ThrowsCleanly (eightBytes 0) (.typed .stringF32) := by
  have hthrow : (eightBytes 0).attempt (ReadOp.typed .stringF32).shape =
      (.error (.outOfRange "not enough len"), { eightBytes 4 with cur := some 1 }) := rfl
  refine ⟨shaped_eightBytes 0, repInv_eightBytes (by decide), hthrow, ?_⟩
  intro h
  rw [ThrowsCleanly, hthrow] at h
  exact absurd (congrArg ByteArray.position (h _ rfl)) (by decide)

end CxkFramework.ByteArray
