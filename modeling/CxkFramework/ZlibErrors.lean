import CxkFramework.RockRoundTrip
import CxkFramework.ZlibStream

/-!
# Errors of `inflate`

`ZlibStream::decode` over an arbitrary `inflate` with the result codes of zlib, and what `parseFrom`
makes of a payload that is corrupt or cut off. Of all codes only `Z_STREAM_ERROR` is looked at.
-/

namespace CxkFramework

open Blocks Runs
open CxkFramework.ByteArray

def Z_STREAM_END : Int := 1

def Z_NEED_DICT : Int := 2

def Z_DATA_ERROR : Int := -3

def Z_MEM_ERROR : Int := -4

/-- What a call of `inflate` leaves: its code, what is left of the input, what it put out. -/
structure Inflated (σ : Type*) where
  state : σ
  rest : List UInt8
  out : List UInt8
  ret : Int

namespace ZlibStream

variable {σ : Type*}

/-- The inner loop of `decode`: the codes reported, the last of them behind the others, and the
stream. -/
def inflateLoop (inflate : σ → List UInt8 → Bool → Nat → Inflated σ) (finish : Bool) :
    Nat → ZlibStream σ → List UInt8 → Option (List Int × Int × ZlibStream σ)
  | 0, _, _ => none
  | n + 1, s, p =>
    let room := s.buffSize.toNat - s.back.2.length
    let r := inflate s.zstream p finish room
    if r.ret = Z_STREAM_ERROR then
      some ([], r.ret, { s with zstream := r.state, buffs := s.back.1 ++ [s.back.2] })
    else
      let s := { s with zstream := r.state, buffs := s.back.1 ++ [s.back.2 ++ r.out] }
      if r.out.length = room then
        match inflateLoop inflate finish n s r.rest with
        | none => none
        | some (codes, ret, s) => some (r.ret :: codes, ret, s)
      else some ([], r.ret, s)

/-- `decode`, with all codes reported in it. -/
def inflateAll (inflate : σ → List UInt8 → Bool → Nat → Inflated σ) (inflateEnd : σ → σ)
    (fuel : Nat) (finish : Bool) :
    List (List UInt8) → ZlibStream σ → Option (List Int × Int × ZlibStream σ)
  | [], s => some ([], Z_OK, s)
  | p :: ps, s =>
    match inflateLoop inflate (finish && ps.isEmpty) fuel s (availIn p) with
    | none => none
    | some (codes, ret, s) =>
      if ret = Z_STREAM_ERROR then some (codes ++ [ret], ret, s)
      else if finish && ps.isEmpty then
        some (codes ++ [ret], Z_OK, { s with zstream := inflateEnd s.zstream })
      else
        match inflateAll inflate inflateEnd fuel finish ps s with
        | none => none
        | some (codes', ret', s) => some (codes ++ ret :: codes', ret', s)

/-- Some calls of `write` and one of `flush`, whatever they return: the codes reported and the
values returned. -/
def inflateSession (inflate : σ → List UInt8 → Bool → Nat → Inflated σ) (inflateEnd : σ → σ)
    (fuel : Nat) : ZlibStream σ → List (List (List UInt8)) →
    Option (List Int × List Int × ZlibStream σ)
  | s, [] =>
    match inflateAll inflate inflateEnd fuel true [[]] s with
    | none => none
    | some (codes, ret, s) => some (codes, [ret], s)
  | s, v :: writes =>
    match inflateAll inflate inflateEnd fuel false v s with
    | none => none
    | some (codes, ret, s) =>
      match inflateSession inflate inflateEnd fuel s writes with
      | none => none
      | some (codes', rets, s) => some (codes ++ codes', ret :: rets, s)

/-- A data, dictionary or memory error. -/
def IsError (code : Int) : Prop := code = Z_DATA_ERROR ∨ code = Z_NEED_DICT ∨ code = Z_MEM_ERROR

instance (code : Int) : Decidable (IsError code) := inferInstanceAs (Decidable (_ ∨ _))

/-- An error that was reported is seen in a value returned. -/
def Seen (codes rets : List Int) : Prop := (∃ code ∈ codes, IsError code) → ∃ ret ∈ rets, ret ≠ Z_OK

section Codes

variable {inflate : σ → List UInt8 → Bool → Nat → Inflated σ} {inflateEnd : σ → σ} {fuel : Nat}
  {finish : Bool} {s s' : ZlibStream σ} {codes rets : List Int} {ret : Int}

/-- Only the last code of the inner loop can be the one that is looked at. -/
theorem inflateLoop_codes {p : List UInt8}
    (h : inflateLoop inflate finish fuel s p = some (codes, ret, s')) : Z_STREAM_ERROR ∉ codes := by
  induction fuel generalizing s p codes with
  | zero => cases h
  | succ n ih =>
    rw [inflateLoop] at h
    dsimp only at h
    split at h
    · cases h
      simp
    · next hret =>
      split at h
      · split at h
        · cases h
        · next codes' ret' s₁ hrest =>
          cases h
          simp only [List.mem_cons, not_or]
          exact ⟨Ne.symm hret, ih hrest⟩
      · cases h
        simp

/-- A call returns `Z_OK`, or `Z_STREAM_ERROR` when that was reported. -/
theorem inflateAll_returns {v : List (List UInt8)}
    (h : inflateAll inflate inflateEnd fuel finish v s = some (codes, ret, s')) :
    ret ≠ Z_OK ↔ Z_STREAM_ERROR ∈ codes := by
  induction v generalizing s codes with
  | nil =>
    cases h
    simp
  | cons p v ih =>
    rw [inflateAll] at h
    split at h
    · cases h
    · next codes₁ ret₁ s₁ hpiece =>
      have hno := inflateLoop_codes hpiece
      split at h
      · next hret =>
        cases h
        simp [hret, Z_OK, Z_STREAM_ERROR]
      · next hret =>
        have hne : Z_STREAM_ERROR ≠ ret₁ := Ne.symm hret
        split at h
        · cases h
          simp [hno, hne]
        · split at h
          · cases h
          · next codes₂ ret₂ s₂ hrest =>
            cases h
            rw [ih hrest]
            simp [hno, hne]

theorem inflateSession_returns {writes : List (List (List UInt8))}
    (h : inflateSession inflate inflateEnd fuel s writes = some (codes, rets, s')) :
    (∃ ret ∈ rets, ret ≠ Z_OK) ↔ Z_STREAM_ERROR ∈ codes := by
  induction writes generalizing s codes rets with
  | nil =>
    rw [inflateSession] at h
    split at h
    · cases h
    · next codes₁ ret₁ s₁ hflush =>
      cases h
      simpa using inflateAll_returns hflush
  | cons v writes ih =>
    rw [inflateSession] at h
    split at h
    · cases h
    · next codes₁ ret₁ s₁ hwrite =>
      split at h
      · cases h
      · next codes₂ rets₂ s₂ hrest =>
        cases h
        rw [List.mem_append, ← inflateAll_returns hwrite, ← ih hrest]
        simp

end Codes

/-- What `parseFrom` does with the stream: one `write` and, when that returned `Z_OK`, a `flush`. The
codes reported, and the buffers when both returned `Z_OK`. -/
def gunzip (inflate : σ → List UInt8 → Bool → Nat → Inflated σ) (inflateEnd : σ → σ) (fuel : Nat)
    (z : σ) (blocks : List (List UInt8)) : Option (List Int × Option (List (List UInt8))) :=
  match inflateAll inflate inflateEnd fuel false blocks (create 4096 z) with
  | none => none
  | some (codes, ret, s) =>
    if ret ≠ Z_OK then some (codes, none)
    else
      match inflateAll inflate inflateEnd fuel true [[]] s with
      | none => none
      | some (codes', ret, s) =>
        if ret ≠ Z_OK then some (codes ++ codes', none) else some (codes ++ codes', some s.buffs)

theorem gunzip_none_iff {inflate : σ → List UInt8 → Bool → Nat → Inflated σ} {inflateEnd : σ → σ}
    {fuel : Nat} {z : σ} {blocks : List (List UInt8)} {codes : List Int}
    {result : Option (List (List UInt8))}
    (h : gunzip inflate inflateEnd fuel z blocks = some (codes, result)) :
    result = none ↔ Z_STREAM_ERROR ∈ codes := by
  rw [gunzip] at h
  split at h
  · cases h
  · next codes₁ ret₁ s₁ hwrite =>
    have hfirst := inflateAll_returns hwrite
    split at h
    · next hret =>
      cases h
      simpa using hfirst.mp hret
    · next hret =>
      have hno : Z_STREAM_ERROR ∉ codes₁ := fun hmem => hret (hfirst.mpr hmem)
      split at h
      · cases h
      · next codes₂ ret₂ s₂ hflush =>
        have hsecond := inflateAll_returns hflush
        split at h
        · next hret₂ =>
          cases h
          simpa [hno] using hsecond.mp hret₂
        · next hret₂ =>
          cases h
          have hno₂ : Z_STREAM_ERROR ∉ codes₂ := fun hmem => hret₂ (hsecond.mpr hmem)
          simp [hno, hno₂]

end ZlibStream

/-! ## `parseFrom` -/

namespace RockMessageDecoder

open CxkFramework.Stream ZlibStream

/-- From the stream come a header that is accepted, with the flag of a compressed payload, and a
payload of the length in it. -/
def Arrives (config : RockConfig) (garbage : Nat → UInt8) (s : Stream) (ba : ByteArray) : Prop :=
  ∃ (rt rt' : Int) (bytes : List UInt8) (s₁ s₂ : Stream),
    s.readFixSize RockMsgHeader.size = (rt, bytes, s₁) ∧ 0 < rt ∧
    (RockMsgHeader.ofBytes bytes).magic = [0xab, 0xcd] ∧
    (RockMsgHeader.ofBytes bytes).version = 1 ∧
    (RockMsgHeader.ofBytes bytes).flag &&& 1 ≠ 0 ∧
    ¬byteswapOnLittleEndian (RockMsgHeader.ofBytes bytes).length ≥ config.maxLength ∧
    s₁.readFixSizeByteArray (newByteArray garbage)
      (toSize (byteswapOnLittleEndian (RockMsgHeader.ofBytes bytes).length)) = (.ok (rt', ba), s₂) ∧
    0 < rt'

/-- The buffers that `write(ba, -1)` gets. -/
def blocksOf (ba : ByteArray) : Except Fault (List (List UInt8)) := do
  let ba ← ba.setPosition 0
  let (iovs, _) ← ba.getReadBuffers (2 ^ 64 - 1)
  .ok (ByteArray.gather ba.nodes iovs)

/-- What `parseFrom` returns for what was put out. -/
def parseOut (garbage' : Nat → UInt8) (buffs : List (List UInt8)) :
    Except Fault (Option RockMessage) :=
  caught none (do
    let ba ← Zlib.getByteArray garbage' buffs
    RockMessage.parseMessage ba)

variable {z : Zlib} {config : RockConfig} {garbage garbage' : Nat → UInt8} {s : Stream}
  {ba : ByteArray}

theorem parseFrom_arrives (h : Arrives config garbage s ba) {blocks : List (List UInt8)}
    (hblocks : blocksOf ba = .ok blocks) :
    (parseFrom z config garbage garbage' s).1 =
      match z.decode blocks with
      | none => .ok none
      | some buffs => parseOut garbage' buffs := by
  obtain ⟨rt, rt', bytes, s₁, s₂, hheader, hrt, hmagic, hversion, hflag, hmax, hread, hrt'⟩ := h
  rw [parseFrom, hheader]
  dsimp only
  rw [if_neg (by omega), if_neg (by simp [hmagic]), if_neg (by simp [hversion]), parseBody,
    if_neg hmax, hread]
  dsimp only
  rw [if_neg (by omega)]
  rw [blocksOf, bind_eq_ok] at hblocks
  obtain ⟨ba₁, hset, hblocks⟩ := hblocks
  rw [bind_eq_ok] at hblocks
  obtain ⟨⟨iovs, n⟩, hget, hgather⟩ := hblocks
  cases hgather
  simp only [parsePayload, hset, ok_bind, if_pos hflag, Zlib.convert, hget]
  cases z.decode (gather ba₁.nodes iovs) with
  | none => rfl
  | some buffs =>
    simp only [parseOut]
    cases Zlib.getByteArray garbage' buffs <;> rfl

/-- A frame on a reliable stream arrives, and the payload lies in one buffer. -/
theorem arrives_of_input (garbage : Nat → UInt8) (hs : Reliable s)
    {header payload rest : List UInt8} (hin : s.input = header ++ (payload ++ rest))
    (hsize : header.length = RockMsgHeader.size)
    (hgood : (RockMsgHeader.ofBytes header).magic = [0xab, 0xcd] ∧
      (RockMsgHeader.ofBytes header).version = 1 ∧ (RockMsgHeader.ofBytes header).flag &&& 1 ≠ 0)
    (hlength : (byteswapOnLittleEndian (RockMsgHeader.ofBytes header).length).toNat =
      payload.length)
    (hmax : payload.length < config.maxLength.toNat)
    (hpayload : 0 < payload.length ∧ payload.length ≤ defaultBaseSize) :
    ∃ ba, Arrives config garbage s ba ∧ blocksOf ba = .ok [payload] := by
  obtain ⟨hmagic, hversion, hflag⟩ := hgood
  obtain ⟨hpos, hle⟩ := hpayload
  have hbase : defaultBaseSize = 4096 := rfl
  have hheight : RockMsgHeader.size = 8 := rfl
  have hne : payload ≠ [] := List.length_pos_iff.mp hpos
  obtain ⟨s₁, hread, hrec⟩ := readFixSize_reliable hs (show header.length < 2 ^ 63 by omega) hin
  have hin₁ : s₁.input = payload ++ rest := by
    have hboth := hin.symm.trans hrec.input_eq
    rw [List.append_cancel_left_eq] at hboth
    exact hboth.symm
  have hfits : ChunkFits defaultBaseSize 0 payload.length := by
    have hfree : free defaultBaseSize 0 = 4096 := rfl
    exact .inl (by omega)
  obtain ⟨ba, s₂, hbody, -, hfilled⟩ := readFixSizeByteArray_filled
    (RockMessage.filled_newByteArray garbage) (hrec.reliable hs) hfits hne (by omega) hin₁
  have hheader : 0 < toInt (header.length : Int) := by
    rw [toInt_of_lt (by omega) (by omega)]
    omega
  have hbytes : 0 < toInt (payload.length : Int) := by
    rw [toInt_of_lt (by omega) (by omega)]
    omega
  refine ⟨ba, ⟨toInt header.length, toInt payload.length, header, s₁, s₂, by rw [← hsize, hread],
    hheader, hmagic, hversion, hflag, ?_, ?_, hbytes⟩, ?_⟩
  · rw [ge_iff_le, UInt32.le_iff_toNat_le, hlength]
    omega
  · have hto : toSize (byteswapOnLittleEndian (RockMsgHeader.ofBytes header).length) =
        payload.length := by
      rw [toSize, hlength, if_pos (by omega)]
    rw [hto]
    exact hbody
  · obtain ⟨ba', hset, hsync⟩ := hfilled.rewind
    obtain ⟨iovs, n, hget, hgather⟩ := hsync.gather_all hne
      (show payload.length ≤ 2 ^ 64 - 1 by omega)
    rw [blocksOf, hset, ok_bind, hget, ok_bind]
    exact congrArg Except.ok (hgather.trans (cut_within hpos hle))

/-- The payload is corrupt, or it is cut off: an error was reported, or the end was not. -/
def Broken (codes : List Int) : Prop := (∃ code ∈ codes, IsError code) ∨ Z_STREAM_END ∉ codes

/-- A frame has arrived, and `inflate` has come to an end with its payload. -/
structure Unpacks {σ : Type*} (inflate : σ → List UInt8 → Bool → Nat → Inflated σ)
    (inflateEnd : σ → σ) (y : σ) (z : Zlib) (config : RockConfig) (garbage : Nat → UInt8)
    (s : Stream) (codes : List Int) (result : Option (List (List UInt8))) : Prop where
  arrives : ∃ ba blocks fuel, Arrives config garbage s ba ∧ blocksOf ba = .ok blocks ∧
    gunzip inflate inflateEnd fuel y blocks = some (codes, result) ∧ z.decode blocks = result

/-- A notification, and its bytes. -/
def greeting : RockMessage := .notify { notify := 7, body := [104, 105] }

/-- They are a gzip member here whose checksum starts with 74 in place of 73. -/
def badCrc : List UInt8 :=
  [31, 139, 8, 0, 0, 0, 0, 0, 2, 3, 99, 102, 103, 202, 200, 4, 0, 74, 89, 155, 134, 5, 0, 0, 0]

/-- What `inflate` does on this member: all is put out, and the checksum does not fit. -/
def inflateBadCrc : Bool → List UInt8 → Bool → Nat → Inflated Bool
  | false, p, _, room => ⟨true, p.drop 21, greeting.plain.take room, Z_DATA_ERROR⟩
  | true, p, _, _ => ⟨true, p, [], Z_DATA_ERROR⟩

def badZlib : Zlib where
  encode _ := none
  decode blocks := (gunzip inflateBadCrc id 2 false blocks).bind Prod.snd

def badFrame : Stream := openStream ([0xab, 0xcd, 1, 1, 0, 0, 0, 25] ++ badCrc)

theorem gunzip_badCrc :
    gunzip inflateBadCrc id 2 false [badCrc] =
      some ([Z_DATA_ERROR, Z_DATA_ERROR], some [greeting.plain]) := by
  decide

theorem unpacks_badFrame :
    Unpacks inflateBadCrc id false badZlib {} (fun _ => 0) badFrame [Z_DATA_ERROR, Z_DATA_ERROR]
      (some [greeting.plain]) where
  arrives := by
    have hin : badFrame.input = [0xab, 0xcd, 1, 1, 0, 0, 0, 25] ++ (badCrc ++ []) := rfl
    obtain ⟨ba, harrives, hblocks⟩ : ∃ ba, Arrives {} (fun _ => 0) badFrame ba ∧
        blocksOf ba = .ok [badCrc] :=
      arrives_of_input (fun _ => 0) (reliable_openStream _) hin rfl (by decide)
        (by decide) (by decide) (by decide)
    have hrun : badZlib.decode [badCrc] = some [greeting.plain] := by
      change (gunzip inflateBadCrc id 2 false [badCrc]).bind Prod.snd = _
      rw [gunzip_badCrc]
      rfl
    exact ⟨ba, [badCrc], 2, harrives, hblocks, gunzip_badCrc, hrun⟩

theorem session_badCrc :
    inflateSession inflateBadCrc id 2 (create 4096 false) [[badCrc]] =
      some ([Z_DATA_ERROR, Z_DATA_ERROR], [Z_OK, Z_OK], ⟨4096, true, [greeting.plain]⟩) :=
  rfl

theorem parseOut_greeting (garbage : Nat → UInt8) :
    parseOut garbage [greeting.plain] = .ok (some greeting) := by
  have hpacked : Zlib.Packed 4096 [greeting.plain] :=
    show greeting.plain.length ≤ 4096 by decide
  obtain ⟨ba, hget, hsync, -⟩ := Zlib.getByteArray_ok garbage hpacked
  rw [List.flatten_singleton] at hsync
  have hend : 0 + (readChunksOf .big greeting.values).flatten.length ≤ greeting.plain.length := by
    decide
  have hreads := chunksRead_one_node garbage
    (show greeting.plain.length < defaultBaseSize by decide) hend
  rw [parseOut, hget, ok_bind, RockMessage.parseMessage_ok hsync (by decide) hreads]
  rfl

end RockMessageDecoder

end CxkFramework
