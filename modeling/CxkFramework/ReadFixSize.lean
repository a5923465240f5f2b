import CxkFramework.ByteArrayCapacity
import CxkFramework.ByteArrayStream

/-!
# Whole reads

`Stream::readFixSize` over every behaviour of `read`. Both overloads run one loop, over what a call
does to the stream and to what is read into; `left` is an `int64_t` and `offset` a `size_t`.
-/

namespace CxkFramework.FixSize

open Blocks
open CxkFramework.Stream (toInt_of_lt toInt_of_nonpos)

/-- A call of `read`: where the bytes go, how many are asked for and what it returned. -/
structure Call where
  offset : Nat
  left : Nat
  len : Int
  deriving DecidableEq, Repr

/-- Conversion to `int64_t`. -/
def toInt64 (n : Int) : Int := Int.bmod n (2 ^ 64)

section Loop

variable {τ : Type*}

/-- The loop of both overloads, with the calls it made. There is no result when the rounds do not
suffice, or when a call does not return. -/
def readLoop (read : Nat → Nat → τ → Option (Int × τ)) :
    Nat → Nat → Int → τ → Option (Option Int × List Call × τ)
  | 0, _, _, _ => none
  | rounds + 1, offset, left, t =>
    if left > 0 then
      match read offset left.toNat t with
      | none => none
      | some (len, t) =>
        if len ≤ 0 then some (some len, [⟨offset, left.toNat, len⟩], t)
        else
          match readLoop read rounds ((offset + len.toNat) % 2 ^ 64) (toInt64 (left - len)) t with
          | none => none
          | some (stop, calls, t) => some (stop, ⟨offset, left.toNat, len⟩ :: calls, t)
    else some (none, [], t)

def readFixSize (read : Nat → Nat → τ → Option (Int × τ)) (rounds length : Nat) (t : τ) :
    Option (Int × List Call × τ) :=
  match readLoop read rounds 0 (toInt64 length) t with
  | none => none
  | some (some len, calls, t) => some (toInt len, calls, t)
  | some (none, calls, t) => some (toInt length, calls, t)

end Loop

/-- The next bytes of a stream. -/
def coming (ahead : Nat → UInt8) (n : Nat) : List UInt8 := (List.range n).map ahead

/-- A `read` into memory: any positive count up to what is asked for, zero or a negative `int`, at any
call. `ahead` are the bytes of the stream that were not yet received. -/
structure Source (σ : Type*) where
  ahead : σ → Nat → UInt8
  read : σ → Nat → Int × σ
  low : ∀ s n, -2 ^ 31 ≤ (read s n).1
  le : ∀ s n, (read s n).1 ≤ n
  ahead_read : ∀ s n i, ahead (read s n).2 i = ahead s ((read s n).1.toNat + i)

/-- `read((char*)buffer + offset, left)`. -/
def Source.readBuffer {σ : Type*} (src : Source σ) (offset left : Nat) (t : σ × List UInt8) :
    Option (Int × σ × List UInt8) :=
  some ((src.read t.1 left).1, (src.read t.1 left).2,
    overwrite t.2 offset (coming (src.ahead t.1) (src.read t.1 left).1.toNat))

/-- A `read` into a byte array, which keeps what it holds and adds to it. -/
structure ArraySource (σ δ : Type*) where
  ahead : σ → Nat → UInt8
  held : δ → List UInt8
  read : σ → δ → Nat → Int × σ × δ
  low : ∀ s ba n, -2 ^ 31 ≤ (read s ba n).1
  le : ∀ s ba n, (read s ba n).1 ≤ n
  ahead_read : ∀ s ba n i, ahead (read s ba n).2.1 i = ahead s ((read s ba n).1.toNat + i)
  held_read : ∀ s ba n,
    held (read s ba n).2.2 = held ba ++ coming (ahead s) (read s ba n).1.toNat

/-- `read(ba, left)`. -/
def ArraySource.readArray {σ δ : Type*} (src : ArraySource σ δ) (_offset left : Nat) (t : σ × δ) :
    Option (Int × σ × δ) :=
  some (src.read t.1 t.2 left)

/-! ## What a run is -/

/-- Each call asks for all that is left behind what was received. -/
def Chain : Nat → Nat → List Call → Prop
  | _, _, [] => True
  | offset, left, c :: calls => c.offset = offset ∧ c.left = left ∧ 0 < left ∧
      Chain (offset + c.len.toNat) (left - c.len.toNat) calls

section Run

variable {τ : Type*}

/-- What the calls have in common: the bytes of a call follow those of the call before it, in the
stream and where they are stored. -/
structure Receives (read : Nat → Nat → τ → Option (Int × τ)) (ahead : τ → Nat → UInt8)
    (Stored : τ → Nat → List UInt8 → τ → Prop) (Ready : Nat → Nat → τ → Prop) : Prop where
  refl : ∀ {offset left t}, Ready offset left t → Stored t offset [] t
  trans : ∀ {offset t t₁ t₂ xs ys}, Stored t offset xs t₁ → Stored t₁ (offset + xs.length) ys t₂ →
    Stored t offset (xs ++ ys) t₂
  call : ∀ {offset left t}, 0 < left → Ready offset left t → ∃ len t',
    read offset left t = some (len, t') ∧ -2 ^ 31 ≤ len ∧ len ≤ left ∧
    (∀ i, ahead t' i = ahead t (len.toNat + i)) ∧
    Stored t offset (coming (ahead t) len.toNat) t' ∧
    (0 < len → Ready (offset + len.toNat) (left - len.toNat) t')

/-- The next `k` bytes were stored, no other was taken, and the calls say why it ended there. -/
structure Ran (ahead : τ → Nat → UInt8) (Stored : τ → Nat → List UInt8 → τ → Prop)
    (offset left : Nat) (t : τ) (stop : Option Int) (calls : List Call) (t' : τ) (k : Nat) :
    Prop where
  le : k ≤ left
  chain : Chain offset left calls
  ahead_eq : ∀ i, ahead t' i = ahead t (k + i)
  stored : Stored t offset (coming (ahead t) k) t'
  stop_eq : stop = (calls.map Call.len).find? (· ≤ 0)
  stop_low : ∀ len, stop = some len → -2 ^ 31 ≤ len ∧ len ≤ 0
  none_iff : stop = none ↔ k = left

/-- `readFixSize` returns the length if and only if exactly the next `length` bytes were stored, and
otherwise the first result that is not positive, with what was received before it stored. -/
structure Exact (ahead : τ → Nat → UInt8) (Stored : τ → Nat → List UInt8 → τ → Prop)
    (length : Nat) (t : τ) (rt : Int) (calls : List Call) (t' : τ) : Prop where
  chain : Chain 0 length calls
  received : ∃ k ≤ length, (∀ i, ahead t' i = ahead t (k + i)) ∧
    Stored t 0 (coming (ahead t) k) t' ∧ (rt = length ↔ k = length) ∧
    (k ≠ length → (calls.map Call.len).find? (· ≤ 0) = some rt)

theorem coming_add (ahead ahead' : Nat → UInt8) (j k : Nat) (h : ∀ i, ahead' i = ahead (j + i)) :
    coming ahead j ++ coming ahead' k = coming ahead (j + k) := by
  rw [coming, coming, coming, List.range_add, List.map_append, List.map_map]
  congr 1
  exact List.map_congr_left fun i _ => h i

@[simp] theorem length_coming (ahead : Nat → UInt8) (n : Nat) : (coming ahead n).length = n := by
  rw [coming, List.length_map, List.length_range]

theorem toInt64_of_lt {n : Int} (h0 : 0 ≤ n) (h : n < 2 ^ 63) : toInt64 n = n := by
  rw [toInt64, Int.bmod_def]
  split <;> omega

variable {read : Nat → Nat → τ → Option (Int × τ)} {ahead : τ → Nat → UInt8}
  {Stored : τ → Nat → List UInt8 → τ → Prop} {Ready : Nat → Nat → τ → Prop}

/-- A round that goes on leaves less to read, so one round more than that is enough. -/
theorem readLoop_ran (hread : Receives read ahead Stored Ready) {rounds offset left : Nat} {t : τ}
    (hready : Ready offset left t) (hr : left < rounds) (hsmall : offset + left < 2 ^ 31) :
    ∃ stop calls t' k, readLoop read rounds offset left t = some (stop, calls, t') ∧
      Ran ahead Stored offset left t stop calls t' k := by
  induction rounds generalizing offset left t with
  | zero => omega
  | succ rounds ih =>
    rw [readLoop]
    by_cases hleft : left = 0
    · subst hleft
      refine ⟨none, [], t, 0, by rw [if_neg (by simp)], ?_⟩
      exact ⟨le_rfl, trivial, fun i => by rw [Nat.zero_add], hread.refl hready, rfl, by simp, by simp⟩
    · obtain ⟨len, t₁, hcall, hlow, hle, hahead, hstored, hnext⟩ := hread.call (by omega) hready
      rw [if_pos (by omega), Int.toNat_natCast, hcall]
      by_cases hlen : len ≤ 0
      · have hzero : len.toNat = 0 := by omega
        rw [hzero] at hahead hstored
        refine ⟨some len, [⟨offset, left, len⟩], t₁, 0, by simp only [hlen, if_true], ?_⟩
        constructor
        · exact Nat.zero_le _
        · exact ⟨rfl, rfl, by omega, trivial⟩
        · exact hahead
        · exact hstored
        · simp [hlen]
        · rintro _ ⟨⟩
          exact ⟨hlow, hlen⟩
        · simp only [reduceCtorEq, false_iff]
          omega
      · have hoffset : (offset + len.toNat) % 2 ^ 64 = offset + len.toNat :=
          Nat.mod_eq_of_lt (by omega)
        have hrest : toInt64 (left - len) = (left - len.toNat : Nat) := by
          rw [toInt64_of_lt (by omega) (by omega)]
          omega
        obtain ⟨stop, calls, t', k, hok, hran⟩ := ih (hnext (by omega))
          (show left - len.toNat < rounds by omega) (by omega)
        refine ⟨stop, ⟨offset, left, len⟩ :: calls, t', len.toNat + k, ?_, ?_⟩
        · simp only [hlen, if_false, hoffset, hrest, hok]
        · have hk := hran.le
          constructor
          · omega
          · exact ⟨rfl, rfl, by omega, hran.chain⟩
          · intro i
            rw [hran.ahead_eq, hahead, Nat.add_assoc]
          · rw [← coming_add _ (ahead t₁) len.toNat k hahead]
            apply hread.trans hstored
            rw [length_coming]
            exact hran.stored
          · rw [hran.stop_eq]
            simp [hlen]
          · exact hran.stop_low
          · rw [hran.none_iff]
            omega

theorem readLoop_mono {rounds more offset : Nat} {left : Int} {t : τ}
    {result : Option Int × List Call × τ} (hle : rounds ≤ more)
    (h : readLoop read rounds offset left t = some result) :
    readLoop read more offset left t = some result := by
  induction rounds generalizing more offset left t result with
  | zero => simp [readLoop] at h
  | succ rounds ih =>
    obtain ⟨more, rfl⟩ : ∃ m, more = m + 1 := Nat.exists_eq_succ_of_ne_zero (by omega)
    rw [readLoop] at h ⊢
    by_cases hleft : left > 0
    · rw [if_pos hleft] at h ⊢
      cases hcall : read offset left.toNat t with
      | none => simp [hcall] at h
      | some answer =>
        obtain ⟨len, t₁⟩ := answer
        simp only [hcall] at h ⊢
        by_cases hlen : len ≤ 0
        · rwa [if_pos hlen] at h ⊢
        · rw [if_neg hlen] at h ⊢
          cases hrest : readLoop read rounds ((offset + len.toNat) % 2 ^ 64)
              (toInt64 (left - len)) t₁ with
          | none =>
            rw [hrest] at h
            cases h
          | some rest =>
            rw [ih (by omega) hrest]
            rwa [hrest] at h
    · rwa [if_neg hleft] at h ⊢

theorem readFixSize_ran (hread : Receives read ahead Stored Ready) {length : Nat} {t : τ}
    (hready : Ready 0 length t) (hsmall : length < 2 ^ 31) :
    ∃ rt calls t', (∀ rounds, length < rounds →
      readFixSize read rounds length t = some (rt, calls, t')) ∧
      Exact ahead Stored length t rt calls t' := by
  obtain ⟨stop, calls, t', k, hok, hran⟩ := readLoop_ran hread hready (Nat.lt_succ_self length)
    (by omega)
  have hleft : toInt64 length = length := toInt64_of_lt (by omega) (by omega)
  have hloop : ∀ rounds, length < rounds →
      readLoop read rounds 0 (toInt64 length) t = some (stop, calls, t') := by
    intro rounds hr
    rw [hleft]
    exact readLoop_mono hr hok
  have hk := hran.none_iff
  have hle := hran.le
  cases stop with
  | none =>
    have hall : k = length := hk.mp rfl
    refine ⟨toInt length, calls, t', fun rounds hr => by rw [readFixSize, hloop rounds hr], ?_⟩
    have hrt : toInt length = length := toInt_of_lt (by omega) (by omega)
    refine ⟨hran.chain, k, hle, hran.ahead_eq, hran.stored, iff_of_true hrt hall, ?_⟩
    intro hne
    exact absurd hall hne
  | some len =>
    obtain ⟨hlow, hnonpos⟩ := hran.stop_low len rfl
    have hne : k ≠ length := fun h => absurd (hk.mpr h) (by simp)
    refine ⟨toInt len, calls, t', fun rounds hr => by rw [readFixSize, hloop rounds hr], ?_⟩
    rw [toInt_of_nonpos hlow hnonpos]
    refine ⟨hran.chain, k, hle, hran.ahead_eq, hran.stored, iff_of_false (by omega) hne, ?_⟩
    intro _
    exact hran.stop_eq.symm

end Run

/-! ## The overloads -/

/-- The bytes lie in the buffer from the offset on, and all else is as it was. -/
def InBuffer {σ : Type*} (t : σ × List UInt8) (offset : Nat) (bytes : List UInt8)
    (t' : σ × List UInt8) : Prop :=
  offset + bytes.length ≤ t.2.length ∧ t'.2 = overwrite t.2 offset bytes

theorem overwrite_overwrite {b xs ys : List UInt8} {p : Nat} (h : p + xs.length ≤ b.length) :
    overwrite (overwrite b p xs) (p + xs.length) ys = overwrite b p (xs ++ ys) := by
  have hlen : (b.take p ++ xs).length = p + xs.length := by
    rw [List.length_append, List.length_take]
    omega
  have hright : overwrite (b.take p ++ xs ++ b.drop (p + xs.length)) ((b.take p ++ xs).length + 0)
      ys = b.take p ++ xs ++ overwrite (b.drop (p + xs.length)) 0 ys := overwrite_append_right
  rw [hlen, Nat.add_zero] at hright
  rw [overwrite.eq_1 b p xs, hright, overwrite, overwrite, List.take_zero, List.nil_append,
    List.drop_drop, List.length_append, List.append_assoc, List.append_assoc, List.append_assoc,
    Nat.zero_add, Nat.add_assoc]

theorem receives_buffer {σ : Type*} (src : Source σ) :
    Receives src.readBuffer (fun t => src.ahead t.1) InBuffer
      (fun offset left t => offset + left ≤ t.2.length) where
  refl {offset left t} h := by
    refine ⟨by rw [List.length_nil]; omega, ?_⟩
    rw [ByteArray.overwrite_nil]
  trans {offset t t₁ t₂ xs ys} h₁ h₂ := by
    obtain ⟨hle₁, heq₁⟩ := h₁
    obtain ⟨hle₂, heq₂⟩ := h₂
    rw [heq₁, length_overwrite hle₁] at hle₂
    constructor
    · rw [List.length_append]
      omega
    · rw [heq₂, heq₁, overwrite_overwrite hle₁]
  call {offset left t} hleft hready := by
    have hlow := src.low t.1 left
    have hle := src.le t.1 left
    have hfits : offset + (coming (src.ahead t.1) (src.read t.1 left).1.toNat).length ≤
        t.2.length := by
      rw [length_coming]
      omega
    refine ⟨_, _, rfl, hlow, hle, src.ahead_read t.1 left, ⟨hfits, rfl⟩, ?_⟩
    intro hpos
    rw [length_overwrite hfits]
    omega

/-- The array holds the bytes behind what it held. -/
def InArray {σ δ : Type*} (held : δ → List UInt8) (t : σ × δ) (_offset : Nat) (bytes : List UInt8)
    (t' : σ × δ) : Prop :=
  held t'.2 = held t.2 ++ bytes

theorem receives_array {σ δ : Type*} (src : ArraySource σ δ) :
    Receives src.readArray (fun t => src.ahead t.1) (InArray src.held) (fun _ _ _ => True) where
  refl _ := (List.append_nil _).symm
  trans h₁ h₂ := by
    rw [InArray] at h₁ h₂ ⊢
    rw [h₂, h₁, List.append_assoc]
  call {offset left t} hleft _ :=
    ⟨_, _, rfl, src.low t.1 t.2 left, src.le t.1 t.2 left, src.ahead_read t.1 t.2 left,
      src.held_read t.1 t.2 left, fun _ => trivial⟩

/-- Both overloads come to an end, and are exact, whatever `read` does. -/
theorem readFixSize_exact {length : Nat} (hsmall : length < 2 ^ 31) :
    (∀ {σ : Type} (src : Source σ) (s : σ) (buffer : List UInt8), length ≤ buffer.length →
      ∃ rt calls t', (∀ rounds, length < rounds →
        readFixSize src.readBuffer rounds length (s, buffer) = some (rt, calls, t')) ∧
        Exact (fun t => src.ahead t.1) InBuffer length (s, buffer) rt calls t') ∧
    (∀ {σ δ : Type} (src : ArraySource σ δ) (s : σ) (ba : δ),
      ∃ rt calls t', (∀ rounds, length < rounds →
        readFixSize src.readArray rounds length (s, ba) = some (rt, calls, t')) ∧
        Exact (fun t => src.ahead t.1) (InArray src.held) length (s, ba) rt calls t') := by
  constructor
  · intro σ src s buffer hbuffer
    apply readFixSize_ran (receives_buffer src) _ hsmall
    rwa [Nat.zero_add]
  · intro σ δ src s ba
    exact readFixSize_ran (receives_array src) trivial hsmall

/-! ## Sockets -/

theorem coming_list (bytes : List UInt8) {k : Nat} (h : k ≤ bytes.length) :
    coming (fun i => bytes.getD i 0) k = bytes.take k := by
  apply List.ext_getElem?
  intro i
  rw [coming, List.getElem?_map]
  by_cases hi : i < k
  · rw [List.getElem?_range hi, Option.map_some, List.getD_eq_getElem _ _ (by omega),
      List.getElem?_take_of_lt hi, List.getElem?_eq_getElem]
  · rw [List.getElem?_eq_none (by simpa using hi), Option.map_none, List.getElem?_eq_none]
    rw [List.length_take]
    omega

theorem read_bounds (s : Stream) (n : Nat) : -2 ^ 31 ≤ (s.read n).1 ∧
    (s.read n).2.1.length ≤ n ∧ (0 < (s.read n).1 → (s.read n).1 = (s.read n).2.1.length) := by
  have h : s.read n = ((s.read n).1, (s.read n).2.1, (s.read n).2.2) := rfl
  exact Stream.read_le h

/-- What a `read` of a socket does to the input. -/
theorem input_read (s : Stream) (n : Nat) : (s.read n).1 ≤ n ∧
    (s.read n).2.1 = s.input.take (s.read n).1.toNat ∧
    (s.read n).2.2.input = s.input.drop (s.read n).1.toNat := by
  rw [Stream.read]
  by_cases hclosed : s.closed = true
  · rw [if_pos hclosed]
    simp
  · rw [if_neg hclosed]
    by_cases hplan : (s.readPlan s.reads).toInt ≤ 0
    · have hzero : (s.readPlan s.reads).toInt.toNat = 0 := by omega
      simp only [hplan, if_true, hzero, List.take_zero, List.drop_zero, and_self, and_true]
      exact hplan.trans (Int.natCast_nonneg n)
    · have hlen : (s.input.take (min n (s.readPlan s.reads).toInt.toNat)).length ≤ n := by
        rw [List.length_take]
        omega
      simp only [hplan, if_false, Int.toNat_natCast]
      refine ⟨by omega, ?_, trivial⟩
      rw [List.length_take, ← List.take_eq_take_min]

/-- `SocketStream::read` into memory. -/
def socket : Source Stream where
  ahead s i := s.input.getD i 0
  read s n := ((s.read n).1, (s.read n).2.2)
  low s n := (read_bounds s n).1
  le s n := (input_read s n).1
  ahead_read s n i := by
    rw [(input_read s n).2.2, List.getD_eq_getElem?_getD, List.getD_eq_getElem?_getD,
      List.getElem?_drop]

theorem coming_socket (s : Stream) (n : Nat) :
    coming (socket.ahead s) (s.read n).1.toNat = (s.read n).2.1 := by
  obtain ⟨-, hbytes, -⟩ := input_read s n
  have hpos := (read_bounds s n).2.2
  have hle : (s.read n).1.toNat ≤ s.input.length := by
    have hlen := congrArg List.length hbytes
    rw [List.length_take] at hlen
    omega
  rw [hbytes]
  exact coming_list s.input hle

/-- A peer whose bytes come two at a time. -/
def pairs : Stream :=
  { input := [1, 2, 3, 4], output := [], readPlan := fun _ => 2, writePlan := fun _ => 2,
    reads := 0, writes := 0, closed := false }

theorem readFixSize_exact_pairs : ∃ t', readFixSize socket.readBuffer 4 3 (pairs, [0, 0, 0]) =
      some (3, [⟨0, 3, 2⟩, ⟨2, 1, 1⟩], t') ∧
    Exact (fun t => socket.ahead t.1) InBuffer 3 (pairs, [0, 0, 0]) 3 [⟨0, 3, 2⟩, ⟨2, 1, 1⟩] t' := by
  obtain ⟨rt, calls, t', hok, hexact⟩ :=
    (readFixSize_exact (show 3 < 2 ^ 31 by decide)).1 socket pairs [0, 0, 0] (by decide)
  have hrun : readFixSize socket.readBuffer 4 3 (pairs, [0, 0, 0]) =
      some (3, [⟨0, 3, 2⟩, ⟨2, 1, 1⟩], _) := rfl
  have hsame := (hok 4 (by decide)).symm.trans hrun
  cases hsame
  exact ⟨_, hrun, hexact⟩

/-- The loop over the buffer stores what the loop of `Stream` collects. -/
theorem readLoop_socket {rounds offset left : Nat} {s s' : Stream} {buffer bytes : List UInt8}
    {stop : Option Int} (hfits : offset + left ≤ buffer.length) (hsmall : offset + left < 2 ^ 31)
    (hr : left ≤ rounds) (h : Stream.readLoop rounds s left = (stop, bytes, s')) :
    ∃ calls, readLoop socket.readBuffer (rounds + 1) offset left (s, buffer) =
      some (stop, calls, s', overwrite buffer offset bytes) := by
  induction rounds generalizing offset left s buffer bytes stop s' with
  | zero =>
    cases h
    obtain rfl : left = 0 := by omega
    exact ⟨[], by rw [readLoop, if_neg (by simp), ByteArray.overwrite_nil]⟩
  | succ rounds ih =>
    rw [Stream.readLoop] at h
    rw [readLoop]
    by_cases hleft : left = 0
    · rw [if_pos hleft] at h
      cases h
      exact ⟨[], by rw [if_neg (by omega), ByteArray.overwrite_nil]⟩
    · have hle := (input_read s left).1
      have hbytes := coming_socket s left
      have hlen : (s.read left).2.1.length = (s.read left).1.toNat := by
        rw [← hbytes, length_coming]
      rw [if_neg hleft] at h
      simp only at h
      have hcall : socket.readBuffer offset left (s, buffer) =
          some ((s.read left).1, (s.read left).2.2, overwrite buffer offset (s.read left).2.1) := by
        rw [← hbytes]
        rfl
      rw [if_pos (by omega), Int.toNat_natCast, hcall]
      by_cases hstop : (s.read left).1 ≤ 0
      · have hnil : (s.read left).2.1 = [] := List.length_eq_zero_iff.mp (by omega)
        rw [if_pos hstop] at h
        cases h
        exact ⟨_, by simp only [hstop, if_true, hnil]; rfl⟩
      · rw [if_neg hstop] at h
        rcases hrest : Stream.readLoop rounds (s.read left).2.2 (left - (s.read left).1.toNat) with
          ⟨stop₁, rest, s₂⟩
        rw [hrest] at h
        cases h
        have hover : (overwrite buffer offset (s.read left).2.1).length = buffer.length :=
          length_overwrite (by omega)
        obtain ⟨calls, hok⟩ := ih
          (show offset + (s.read left).1.toNat + (left - (s.read left).1.toNat) ≤
            (overwrite buffer offset (s.read left).2.1).length by omega)
          (by omega) (by omega) hrest
        have hoffset : (offset + (s.read left).1.toNat) % 2 ^ 64 = offset + (s.read left).1.toNat :=
          Nat.mod_eq_of_lt (by omega)
        have hint : toInt64 (left - (s.read left).1) = (left - (s.read left).1.toNat : Nat) := by
          rw [toInt64_of_lt (by omega) (by omega)]
          omega
        refine ⟨⟨offset, left, (s.read left).1⟩ :: calls, ?_⟩
        simp only [hstop, if_false, hoffset, hint, hok]
        rw [← hlen, overwrite_overwrite (by omega)]

/-- On a socket it is the function that every framed protocol is built on. -/
theorem readFixSize_socket {length : Nat} (hsmall : length < 2 ^ 31) (s : Stream)
    {buffer : List UInt8} (hfits : length ≤ buffer.length) :
    ∃ calls, readFixSize socket.readBuffer (length + 1) length (s, buffer) =
      some ((s.readFixSize length).1, calls, (s.readFixSize length).2.2,
        overwrite buffer 0 (s.readFixSize length).2.1) := by
  rcases hloop : Stream.readLoop length s length with ⟨stop, bytes, s'⟩
  obtain ⟨calls, hok⟩ := readLoop_socket (show 0 + length ≤ buffer.length by omega) (by omega)
    le_rfl hloop
  have hleft : toInt64 length = length := toInt64_of_lt (by omega) (by omega)
  have hmax : length < 2 ^ 63 := by omega
  refine ⟨calls, ?_⟩
  rw [readFixSize, hleft, hok, Stream.readFixSize]
  simp only [if_pos hmax, hloop]
  cases stop <;> dsimp only

/-- `SocketStream::read` into an array. -/
def readSocketArray (_offset left : Nat) (t : Stream × ByteArray) :
    Option (Int × Stream × ByteArray) :=
  match t.1.readByteArray t.2 left with
  | (.error _, _) => none
  | (.ok (rt, ba), s) => some (rt, s, ba)

/-- The bytes before the position. -/
def heldBytes (ba : ByteArray) : List UInt8 := ba.content.take ba.position

theorem heldBytes_addCapacity {ba : ByteArray} (hs : ba.Shaped) (hr : ba.RepInv) (n : Nat) :
    heldBytes (ba.addCapacity n) = heldBytes ba := by
  have hsame := congrArg (List.take ba.position) (ByteArray.grown_addCapacity hs hr n).stored_eq
  rw [List.take_take, List.take_take, min_eq_left hr.position_le] at hsame
  rw [heldBytes, heldBytes, ByteArray.addCapacity_position, hsame]

/-- An array that keeps its invariant and in which the rest fits; it does after every round, since
the first one makes the room. -/
def Roomy (_offset left : Nat) (t : Stream × ByteArray) : Prop :=
  t.2.Shaped ∧ t.2.RepInv ∧ t.2.Fits left

theorem heldBytes_scatter {ba : ByteArray} (hs : ba.Shaped) (hr : ba.RepInv) {n : Nat}
    {iovs : List Iovec} (hl : ByteArray.Lends ba n iovs) {bytes : List UInt8} (hb : bytes.length ≤ n) :
    ((ByteArray.scatter ba.nodes iovs bytes).flatten).take (ba.position + bytes.length) =
      heldBytes ba ++ bytes := by
  have hle := hr.position_le.trans hr.size_le
  have hcap := hr.capacity_eq
  have hlen := hs.length_content
  have htake : (ba.content.take ba.position ++ bytes).length = ba.position + bytes.length := by
    rw [List.length_append, List.length_take]
    omega
  rw [(hl.scatter_eq bytes hb).2.2, overwrite, heldBytes, ← htake, List.take_left]

/-- Filling the buffers changes nothing but the bytes. -/
theorem keeps_scatter {ba : ByteArray} (hs : ba.Shaped) (hr : ba.RepInv) {n : Nat}
    {iovs : List Iovec} (hl : ByteArray.Lends ba n iovs) {bytes : List UInt8} (hb : bytes.length ≤ n) :
    ({ ba with nodes := ByteArray.scatter ba.nodes iovs bytes } : ByteArray).Shaped ∧
      ({ ba with nodes := ByteArray.scatter ba.nodes iovs bytes } : ByteArray).RepInv := by
  obtain ⟨hu, hlen, -⟩ := hl.scatter_eq bytes hb
  constructor
  · refine ⟨hs.base_pos, hu, List.length_pos_iff.mp ?_⟩
    dsimp only
    rw [hlen]
    exact List.length_pos_iff.mpr hs.root
  · refine ⟨hr.position_le, hr.size_le, ?_, hr.cur_null, hr.cur_node⟩
    dsimp only
    rw [hlen, hr.capacity_eq]

/-- A call on an open socket: the array has what it had, behind it what was received, and the room
for the rest. -/
theorem readSocketArray_open {s : Stream} {ba : ByteArray} (hs : ba.Shaped) (hr : ba.RepInv)
    (hopen : s.closed = false) {left : Nat} (hfits : ba.Fits left) (hleft : 0 < left) (offset : Nat) :
    ∃ ba', readSocketArray offset left (s, ba) =
        some ((s.read left).1, (s.read left).2.2, ba') ∧ ba'.Shaped ∧ ba'.RepInv ∧
      heldBytes ba' = heldBytes ba ++ (s.read left).2.1 ∧
      left - (s.read left).1.toNat ≤ ba'.getCapacity := by
  obtain ⟨iovs, hok, hl⟩ := ByteArray.getWriteBuffers_ok hs hr hleft hfits
  have hs₁ := ByteArray.shaped_addCapacity hs left
  have hr₁ := ByteArray.repInv_addCapacity hs hr left
  have hroom := (ByteArray.fits_iff hs hr left).mp hfits
  have hbytes := coming_socket s left
  have hlen : (s.read left).2.1.length = (s.read left).1.toNat := by
    rw [← hbytes, length_coming]
  have hle := (input_read s left).1
  obtain ⟨hs₂, hr₂⟩ := keeps_scatter hs₁ hr₁ hl
    (show (s.read left).2.1.length ≤ left by omega)
  have hheld := heldBytes_scatter hs₁ hr₁ hl (show (s.read left).2.1.length ≤ left by omega)
  have hposition := ByteArray.addCapacity_position ba left
  rw [heldBytes_addCapacity hs hr, hlen] at hheld
  by_cases hpos : 0 < (s.read left).1
  · have hset := ByteArray.setPosition_ok hs₂ hr₂
      (show (ba.addCapacity left).position + (s.read left).1.toNat ≤
        (ba.addCapacity left).capacity by omega)
    obtain ⟨hs₃, hr₃⟩ := ByteArray.setPosition_keeps hs₂ hr₂ hset
    refine ⟨_, ?_, hs₃, hr₃, hheld, ?_⟩
    · simp only [readSocketArray, Stream.readByteArray, hopen, Bool.false_eq_true, if_false, hok,
        hl.room_eq, hpos, if_true, hset]
    · simp only [ByteArray.getCapacity]
      omega
  · have hzero : (s.read left).1.toNat = 0 := by omega
    rw [hzero, Nat.add_zero] at hheld
    refine ⟨_, ?_, hs₂, hr₂, ?_, ?_⟩
    · simp only [readSocketArray, Stream.readByteArray, hopen, Bool.false_eq_true, if_false, hok,
        hl.room_eq, hpos]
    · exact hheld
    · simp only [ByteArray.getCapacity]
      omega

theorem receives_socketArray : Receives readSocketArray (fun t => socket.ahead t.1)
    (InArray heldBytes) Roomy where
  refl _ := (List.append_nil _).symm
  trans h₁ h₂ := by
    rw [InArray] at h₁ h₂ ⊢
    rw [h₂, h₁, List.append_assoc]
  call {offset left t} hleft hready := by
    obtain ⟨s, ba⟩ := t
    obtain ⟨hs, hr, hfits⟩ := hready
    by_cases hclosed : s.closed = true
    · have hcall : readSocketArray offset left (s, ba) = some (-1, s, ba) := by
        simp only [readSocketArray, Stream.readByteArray, hclosed, if_true]
      refine ⟨-1, (s, ba), hcall, by decide, by omega, fun i => ?_, ?_, by omega⟩
      · rw [show (-1 : Int).toNat = 0 from rfl, Nat.zero_add]
      · exact (List.append_nil _).symm
    · have hle := (input_read s left).1
      obtain ⟨ba', hcall, hs', hr', hheld, hroom⟩ :=
        readSocketArray_open hs hr (by simpa using hclosed) hfits hleft offset
      refine ⟨_, _, hcall, (read_bounds s left).1, hle, socket.ahead_read s left, ?_, ?_⟩
      · rw [InArray, hheld, ← coming_socket]
      · intro _
        exact ⟨hs', hr', .inl hroom⟩

/-- The overload for arrays on a socket, whenever the first call has the room it asks for. -/
theorem readFixSize_socketArray {length : Nat} (hsmall : length < 2 ^ 31) (s : Stream)
    {ba : ByteArray} (hs : ba.Shaped) (hr : ba.RepInv) (hfits : ba.Fits length) :
    ∃ rt calls t', (∀ rounds, length < rounds →
      readFixSize readSocketArray rounds length (s, ba) = some (rt, calls, t')) ∧
      Exact (fun t => socket.ahead t.1) (InArray heldBytes) length (s, ba) rt calls t' :=
  readFixSize_ran receives_socketArray ⟨hs, hr, hfits⟩ hsmall

end CxkFramework.FixSize
