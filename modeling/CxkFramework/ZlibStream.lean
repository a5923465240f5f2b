import CxkFramework.Codec

/-!
# The zlib stream

`ZlibStream` over a codec that stands for `deflate` or `inflate`, whichever `m_encode` chooses. A
buffer is the bytes it holds.
-/

namespace CxkFramework

def Z_OK : Int := 0

def Z_STREAM_ERROR : Int := -2

structure ZlibStream (σ : Type*) where
  buffSize : UInt32
  zstream : σ
  buffs : List (List UInt8)

namespace ZlibStream

open Codec

variable {σ τ : Type*}

def create (buffSize : UInt32) (z : σ) : ZlibStream σ := ⟨buffSize, z, []⟩

/-- The buffer that the next call writes to, behind those before it. -/
def back (s : ZlibStream σ) : List (List UInt8) × List UInt8 :=
  match s.buffs.getLast? with
  | some buff => if buff.length ≠ s.buffSize.toNat then (s.buffs.dropLast, buff) else (s.buffs, [])
  | none => (s.buffs, [])

/-- `avail_in` has 32 bits. -/
def availIn (p : List UInt8) : List UInt8 := p.take (p.length % 4294967296)

/-- The inner loop: whether a call was refused. -/
def pieceLoop (c : Codec σ) (finish : Bool) :
    Nat → ZlibStream σ → List UInt8 → Option (Bool × ZlibStream σ)
  | 0, _, _ => none
  | n + 1, s, p =>
    let room := s.buffSize.toNat - s.back.2.length
    let r := c.call s.zstream p finish room
    if r.refused then
      some (true, { s with zstream := r.state, buffs := s.back.1 ++ [s.back.2] })
    else if r.out.length = room then
      pieceLoop c finish n
        { s with zstream := r.state, buffs := s.back.1 ++ [s.back.2 ++ r.out] } r.rest
    else some (false, { s with zstream := r.state, buffs := s.back.1 ++ [s.back.2 ++ r.out] })

/-- `encode` and `decode`, of which only the codec is different. -/
def drive (c : Codec σ) (fuel : Nat) (finish : Bool) :
    List (List UInt8) → ZlibStream σ → Option (Int × ZlibStream σ)
  | [], s => some (Z_OK, s)
  | p :: ps, s =>
    match pieceLoop c (finish && ps.isEmpty) fuel s (availIn p) with
    | none => none
    | some (true, s) => some (Z_STREAM_ERROR, s)
    | some (false, s) =>
      if finish && ps.isEmpty then some (Z_OK, { s with zstream := c.close s.zstream })
      else drive c fuel finish ps s

def encode (deflate : Codec σ) := drive deflate

def decode (inflate : Codec σ) := drive inflate

/-- `write`, of a flat buffer or of the buffers of a `ByteArray`. -/
def write (c : Codec σ) (fuel : Nat) (s : ZlibStream σ) (v : List (List UInt8)) :
    Option (Int × ZlibStream σ) := drive c fuel false v s

def flush (c : Codec σ) (fuel : Nat) (s : ZlibStream σ) : Option (Int × ZlibStream σ) :=
  drive c fuel true [[]] s

def getResult (s : ZlibStream σ) : List UInt8 := s.buffs.flatten

/-- Some calls of `write` and one of `flush`, and what they return. -/
def session (c : Codec σ) (fuel : Nat) :
    ZlibStream σ → List (List (List UInt8)) → Option (List Int × ZlibStream σ)
  | s, [] =>
    match s.flush c fuel with
    | none => none
    | some (ret, s) => some ([ret], s)
  | s, v :: writes =>
    match s.write c fuel v with
    | none => none
    | some (ret, s) =>
      match session c fuel s writes with
      | none => none
      | some (rets, s) => some (ret :: rets, s)

/-- The calls return, all of them `Z_OK`, and leave the stream like that. -/
def Returns (c : Codec σ) (s : ZlibStream σ) (writes : List (List (List UInt8)))
    (s' : ZlibStream σ) : Prop :=
  ∃ N, ∀ fuel ≥ N, ∃ rets, session c fuel s writes = some (rets, s') ∧ ∀ ret ∈ rets, ret = Z_OK

/-- Every buffer but the last is full. -/
structure Packed (s : ZlibStream σ) : Prop where
  full : ∀ buff ∈ s.buffs.dropLast, buff.length = s.buffSize.toNat
  length_le : ∀ buff ∈ s.buffs, buff.length ≤ s.buffSize.toNat

/-! ## One piece -/

section Piece

variable {c : Codec σ} {s : ZlibStream σ} {finish : Bool} {p : List UInt8}

theorem availIn_of_lt (h : p.length < 4294967296) : availIn p = p := by
  rw [availIn, Nat.mod_eq_of_lt h, List.take_length]

theorem length_availIn_le (p : List UInt8) : (availIn p).length ≤ p.length := by
  rw [availIn, List.length_take]
  exact Nat.min_le_right _ _

theorem Packed.back (h : s.Packed) (hsize : 0 < s.buffSize.toNat) :
    (∀ buff ∈ s.back.1, buff.length = s.buffSize.toNat) ∧ s.back.2.length < s.buffSize.toNat ∧
      s.back.1.flatten ++ s.back.2 = s.getResult := by
  rw [ZlibStream.back]
  cases hlast : s.buffs.getLast? with
  | none =>
    rw [List.getLast?_eq_none_iff] at hlast
    simp [hlast, getResult, hsize]
  | some buff =>
    have happend := List.dropLast_append_getLast? buff hlast
    have hle := h.length_le buff (List.mem_of_getLast? hlast)
    by_cases hfull : buff.length = s.buffSize.toNat
    · simp only [hfull, ne_eq, not_true_eq_false, if_false]
      refine ⟨?_, hsize, List.append_nil _⟩
      intro b hb
      rw [← happend, List.mem_append, List.mem_singleton] at hb
      cases hb with
      | inl hb => exact h.full b hb
      | inr hb => rw [hb, hfull]
    · simp only [ne_eq, hfull, not_false_eq_true, if_true]
      refine ⟨h.full, by omega, ?_⟩
      rw [getResult]
      conv => rhs; rw [← happend]
      simp

/-- Buffers that are full, and one behind them. -/
theorem packed_append {z : σ} {b : UInt32} {before : List (List UInt8)} {buff : List UInt8}
    (hbefore : ∀ x ∈ before, x.length = b.toNat) (hbuff : buff.length ≤ b.toNat) :
    Packed ⟨b, z, before ++ [buff]⟩ where
  full x hx := hbefore x (by simpa using hx)
  length_le x hx := by
    rw [List.mem_append, List.mem_singleton] at hx
    cases hx with
    | inl hx => exact Nat.le_of_eq (hbefore x hx)
    | inr hx => rw [hx]; exact hbuff

/-- What the stream has taken, and where it stands. -/
structure Took (c : Codec σ) (finish : Bool) (s : ZlibStream σ) (p : List UInt8)
    (s' : ZlibStream σ) : Prop where
  feeds : ∃ bytes, Feeds c finish s.zstream p bytes s'.zstream ∧
    s'.getResult = s.getResult ++ bytes
  packed : s'.Packed
  accepts : c.accepts s'.zstream finish
  buffSize : s'.buffSize = s.buffSize

/-- The loop ends, since every call that leaves no room has put out some of what is pending. -/
theorem pieceLoop_spec (hz : c.accepts s.zstream finish) (hp : s.Packed)
    (hsize : 0 < s.buffSize.toNat) :
    ∃ N s', (∀ fuel ≥ N, pieceLoop c finish fuel s p = some (false, s')) ∧ Took c finish s p s' := by
  induction hn : c.pending s.zstream p finish using Nat.strongRecOn generalizing s p with
  | _ n ih =>
    obtain ⟨hbefore, hcur, hresult⟩ := hp.back hsize
    have hroom : 0 < s.buffSize.toNat - s.back.2.length := by omega
    generalize hroom' : s.buffSize.toNat - s.back.2.length = room at hroom
    have hcall := c.not_refused (p := p) hz hroom
    have haccepts := c.accepts_call (p := p) hz hroom
    have hout := c.length_out_le (p := p) hz hroom
    generalize hs₁ : (⟨s.buffSize, (c.call s.zstream p finish room).state,
      s.back.1 ++ [s.back.2 ++ (c.call s.zstream p finish room).out]⟩ : ZlibStream σ) = s₁
    have hpacked : s₁.Packed := by
      rw [← hs₁]
      apply packed_append hbefore
      rw [List.length_append]
      omega
    have hresult₁ : s₁.getResult = s.getResult ++ (c.call s.zstream p finish room).out := by
      rw [← hs₁, ← hresult]
      simp [getResult]
    have hstate : s₁.zstream = (c.call s.zstream p finish room).state := by rw [← hs₁]
    have hbuffSize : s₁.buffSize = s.buffSize := by rw [← hs₁]
    have hunfold : ∀ fuel, pieceLoop c finish (fuel + 1) s p =
        if (c.call s.zstream p finish room).out.length = room then
          pieceLoop c finish fuel s₁ (c.call s.zstream p finish room).rest
        else some (false, s₁) := by
      intro fuel
      rw [pieceLoop]
      simp only [hroom', hcall, Bool.false_eq_true, if_false, hs₁]
    by_cases hfull : (c.call s.zstream p finish room).out.length = room
    · have hlt := c.pending_lt (p := p) hz hroom hfull
      rw [hn, ← hstate] at hlt
      obtain ⟨N, s', hloop, htook⟩ := ih _ hlt (by rw [hstate]; exact haccepts) hpacked
        (by rw [hbuffSize]; exact hsize) rfl
      refine ⟨N + 1, s', ?_, ?_⟩
      · intro fuel hfuel
        obtain ⟨k, rfl⟩ := Nat.exists_eq_add_of_le' (Nat.le_of_add_left_le hfuel)
        rw [hunfold, if_pos hfull]
        exact hloop k (by omega)
      · obtain ⟨bytes, hfeeds, hbytes⟩ := htook.feeds
        rw [hstate] at hfeeds
        refine ⟨⟨_, .more hroom hfull hfeeds, ?_⟩, htook.packed, htook.accepts,
          htook.buffSize.trans hbuffSize⟩
        rw [hbytes, hresult₁, List.append_assoc]
    · refine ⟨1, s₁, ?_, ?_⟩
      · intro fuel hfuel
        obtain ⟨k, rfl⟩ := Nat.exists_eq_add_of_le' hfuel
        rw [hunfold, if_neg hfull]
      · have hlt : (c.call s.zstream p finish room).out.length < room := by omega
        have hrest := c.rest_eq_nil hz hroom hlt
        refine ⟨⟨_, ?_, hresult₁⟩, hpacked, ?_, hbuffSize⟩
        · rw [hstate]
          exact .last hroom hlt hrest
        · rw [hstate]
          exact haccepts

end Piece

/-! ## Whole sessions -/

section Session

variable {c : Codec σ} {s : ZlibStream σ}

/-- What the pieces of a `write` have become. -/
structure TookAll (c : Codec σ) (s : ZlibStream σ) (v : List (List UInt8)) (s' : ZlibStream σ) :
    Prop where
  feeds : ∃ bytes, FeedsAll c s.zstream (v.map availIn) bytes s'.zstream ∧
    s'.getResult = s.getResult ++ bytes
  packed : s'.Packed
  accepts : c.accepts s'.zstream false
  buffSize : s'.buffSize = s.buffSize

theorem write_spec (hz : c.accepts s.zstream false) (hp : s.Packed) (hsize : 0 < s.buffSize.toNat)
    (v : List (List UInt8)) :
    ∃ N s', (∀ fuel ≥ N, s.write c fuel v = some (Z_OK, s')) ∧ TookAll c s v s' := by
  induction v generalizing s with
  | nil =>
    exact ⟨0, s, fun fuel _ => rfl, ⟨[], .nil _, (List.append_nil _).symm⟩, hp, hz, rfl⟩
  | cons p v ih =>
    obtain ⟨N, s₁, hpiece, htook⟩ := pieceLoop_spec (p := availIn p) hz hp hsize
    obtain ⟨bytes, hfeeds, hbytes⟩ := htook.feeds
    obtain ⟨M, s₂, hrest, hall⟩ := ih htook.accepts htook.packed (by rw [htook.buffSize]; exact hsize)
    obtain ⟨bytes', hfeeds', hbytes'⟩ := hall.feeds
    refine ⟨N + M, s₂, ?_, ⟨bytes ++ bytes', .cons hfeeds hfeeds', ?_⟩, hall.packed, hall.accepts,
      hall.buffSize.trans htook.buffSize⟩
    · intro fuel hfuel
      have hstep := hpiece fuel (by omega)
      have hnext := hrest fuel (by omega)
      rw [write] at hnext
      simp only [write, drive, Bool.false_and, hstep, Bool.false_eq_true, if_false, hnext]
    · rw [hbytes', hbytes, List.append_assoc]

theorem flush_spec (hz : c.accepts s.zstream false) (hp : s.Packed)
    (hsize : 0 < s.buffSize.toNat) :
    ∃ N s' z bytes, (∀ fuel ≥ N, s.flush c fuel = some (Z_OK, s')) ∧
      Feeds c true s.zstream [] bytes z ∧ s'.getResult = s.getResult ++ bytes ∧ s'.Packed := by
  obtain ⟨N, s₁, hpiece, htook⟩ := pieceLoop_spec (p := []) (c.accepts_finish hz) hp hsize
  obtain ⟨bytes, hfeeds, hbytes⟩ := htook.feeds
  refine ⟨N, { s₁ with zstream := c.close s₁.zstream }, s₁.zstream, bytes, ?_, hfeeds, hbytes,
    ⟨htook.packed.full, htook.packed.length_le⟩⟩
  intro fuel hfuel
  have hstep := hpiece fuel hfuel
  have hnil : availIn [] = [] := rfl
  simp [flush, drive, hnil, hstep]

/-- Calls of `write` and a `flush` return `Z_OK` and leave what the codec puts out, in order and packed,
whatever the size of the buffers. -/
theorem session_spec (hz : c.accepts s.zstream false) (hp : s.Packed)
    (hsize : 0 < s.buffSize.toNat) (writes : List (List (List UInt8))) :
    ∃ s' bytes, Returns c s writes s' ∧ s'.Packed ∧
      Codes c s.zstream (writes.flatten.map availIn) bytes ∧
      s'.getResult = s.getResult ++ bytes := by
  induction writes generalizing s with
  | nil =>
    obtain ⟨N, s', z, bytes, hflush, hfeeds, hbytes, hpacked⟩ := flush_spec hz hp hsize
    refine ⟨s', bytes, ⟨N, ?_⟩, hpacked, ⟨_, z, [], bytes, .nil _, hfeeds, rfl⟩, hbytes⟩
    intro fuel hfuel
    refine ⟨[Z_OK], ?_, by simp⟩
    rw [session, hflush fuel hfuel]
  | cons v writes ih =>
    obtain ⟨N, s₁, hwrite, hall⟩ := write_spec hz hp hsize v
    obtain ⟨bytes, hfeeds, hbytes⟩ := hall.feeds
    obtain ⟨s', bytes', ⟨M, hrest⟩, hpacked, hcodes, hbytes'⟩ :=
      ih hall.accepts hall.packed (by rw [hall.buffSize]; exact hsize)
    obtain ⟨z', z'', out, tail, hout, htail, rfl⟩ := hcodes
    refine ⟨s', bytes ++ (out ++ tail), ⟨N + M, ?_⟩, hpacked, ?_, ?_⟩
    · intro fuel hfuel
      obtain ⟨rets, hsession, hrets⟩ := hrest fuel (by omega)
      refine ⟨Z_OK :: rets, ?_, ?_⟩
      · simp only [session, hwrite fuel (by omega), hsession]
      · intro ret hret
        cases hret with
        | head => rfl
        | tail _ hmem => exact hrets ret hmem
    · rw [List.flatten_cons, List.map_append]
      exact ⟨z', z'', bytes ++ out, tail, hfeeds.append hout, htail, (List.append_assoc ..).symm⟩
    · rw [hbytes', hbytes, List.append_assoc]

theorem packed_create (b : UInt32) (z : σ) : (create b z).Packed where
  full _ h := by cases h
  length_le _ h := by cases h

/-- From the start. -/
theorem session_create {b : UInt32} {z : σ} (hz : c.accepts z false) (hb : 0 < b)
    (writes : List (List (List UInt8))) :
    ∃ s, Returns c (create b z) writes s ∧ s.Packed ∧
      Codes c z (writes.flatten.map availIn) s.getResult := by
  obtain ⟨s, bytes, hreturns, hpacked, hcodes, hbytes⟩ :=
    session_spec (s := create b z) hz (packed_create b z) (UInt32.lt_iff_toNat_lt.mp hb) writes
  have hempty : (create b z).getResult = [] := rfl
  rw [hempty, List.nil_append] at hbytes
  exact ⟨s, hreturns, hpacked, by rw [hbytes]; exact hcodes⟩

theorem map_availIn {ps : List (List UInt8)} (h : ∀ p ∈ ps, p.length < 4294967296) :
    ps.map availIn = ps := by
  rw [List.map_congr_left fun p hp => availIn_of_lt (h p hp), List.map_id']

/-- A piece that does not fit `avail_in` makes the data shorter. -/
theorem flatten_map_availIn {ps : List (List UInt8)} :
    (ps.map availIn).flatten = ps.flatten ↔ ∀ p ∈ ps, p.length < 4294967296 := by
  constructor
  · intro heq
    induction ps with
    | nil => simp
    | cons p ps ih =>
      have hle : ∀ qs : List (List UInt8), (qs.map availIn).flatten.length ≤ qs.flatten.length := by
        intro qs
        induction qs with
        | nil => exact Nat.le_refl 0
        | cons q qs ih =>
          simp only [List.map_cons, List.flatten_cons, List.length_append]
          exact Nat.add_le_add (length_availIn_le q) ih
      have hlength := congrArg List.length heq
      simp only [List.map_cons, List.flatten_cons, List.length_append] at hlength
      have hrest := hle ps
      have hfirst := length_availIn_le p
      have hp : (availIn p).length = p.length := by omega
      have hlt : p.length < 4294967296 := by
        rw [availIn, List.length_take] at hp
        have hmod := Nat.mod_lt p.length (by decide : 0 < 4294967296)
        omega
      rw [List.map_cons, List.flatten_cons, List.flatten_cons, availIn_of_lt hlt,
        List.append_cancel_left_eq] at heq
      intro q hq
      cases hq with
      | head => exact hlt
      | tail _ hmem => exact ih heq q hmem
  · intro h
    rw [map_availIn h]

end Session

/-- `deflate` and then `inflate`: the buffers hold what the codec puts out, and every way to take the
result back gives the data exactly when each piece that was written fits `avail_in`. -/
theorem session_roundTrip_iff {deflate : Codec σ} {inflate : Codec τ} {z : σ} {y : τ}
    (hz : deflate.accepts z false) (hy : inflate.accepts y false)
    (hinv : Inverts deflate z inflate y) {b b' : UInt32} (hb : 0 < b) (hb' : 0 < b')
    (writes : List (List (List UInt8))) :
    ∃ s, Returns deflate (create b z) writes s ∧ s.Packed ∧
      Codes deflate z (writes.flatten.map availIn) s.getResult ∧
      ((∀ writes', writes'.flatten.flatten = s.getResult →
          (∀ p ∈ writes'.flatten, p.length < 4294967296) →
          ∃ s', Returns inflate (create b' y) writes' s' ∧ s'.Packed ∧
            Codes inflate y writes'.flatten s'.getResult ∧
            s'.getResult = writes.flatten.flatten) ↔
        ∀ p ∈ writes.flatten, p.length < 4294967296) := by
  obtain ⟨s, hreturns, hpacked, hcodes⟩ := session_create hz hb writes
  refine ⟨s, hreturns, hpacked, hcodes, ?_⟩
  -- the other way always gives what `deflate` was given
  have hback : ∀ writes', writes'.flatten.flatten = s.getResult →
      (∀ p ∈ writes'.flatten, p.length < 4294967296) →
      ∃ s', Returns inflate (create b' y) writes' s' ∧ s'.Packed ∧
        Codes inflate y writes'.flatten s'.getResult ∧
        s'.getResult = (writes.flatten.map availIn).flatten := by
    intro writes' hwhole hsmall
    obtain ⟨s', hreturns', hpacked', hcodes'⟩ := session_create hy hb' writes'
    rw [map_availIn hsmall] at hcodes'
    exact ⟨s', hreturns', hpacked', hcodes', hinv _ _ hcodes _ _ hwhole hcodes'⟩
  rw [← flatten_map_availIn]
  constructor
  · intro hall
    have hbytes : ∀ l : List UInt8, (l.map fun x => [x]).flatten = l := by
      intro l
      induction l with
      | nil => rfl
      | cons x l ih => rw [List.map_cons, List.flatten_cons, ih, List.singleton_append]
    have hsmall : ∀ p ∈ [s.getResult.map fun x => [x]].flatten, p.length < 4294967296 := by
      simp
    have hwhole : [s.getResult.map fun x => [x]].flatten.flatten = s.getResult := by
      simp [hbytes]
    obtain ⟨s₁, ⟨N, hrun⟩, -, -, hresult⟩ := hback _ hwhole hsmall
    obtain ⟨s₂, ⟨M, hrun'⟩, -, -, hresult'⟩ := hall _ hwhole hsmall
    obtain ⟨_, hsession, -⟩ := hrun (N + M) (Nat.le_add_right N M)
    obtain ⟨_, hsession', -⟩ := hrun' (N + M) (Nat.le_add_left M N)
    rw [hsession] at hsession'
    cases hsession'
    rw [← hresult, hresult']
  · intro heq writes' hwhole hsmall
    rw [← heq]
    exact hback writes' hwhole hsmall

/-! ## Stored blocks

What zlib does at the level `NO_COMPRESSION` with the type `DEFLATE`: all input is kept until the
stream is finished, and comes in blocks that have a header of five bytes. -/

section Stored

def block (last : UInt8) (data : List UInt8) : List UInt8 :=
  let lo := UInt8.ofNat (data.length % 256)
  let hi := UInt8.ofNat (data.length / 256)
  last :: lo :: hi :: ~~~lo :: ~~~hi :: data

/-- The stream for some data; the first argument bounds the number of blocks before the last. -/
def stored : Nat → List UInt8 → List UInt8
  | 0, data => block 1 data
  | n + 1, data =>
    if data.length ≤ 65531 then block 1 data
    else block 0 (data.take 65531) ++ stored n (data.drop 65531)

/-- The data as far as the stream has come; the first argument bounds the number of blocks. -/
def unstored : Nat → List UInt8 → List UInt8
  | n + 1, last :: lo :: hi :: _ :: _ :: rest =>
    rest.take (lo.toNat + 256 * hi.toNat) ++
      if last = 1 then [] else unstored n (rest.drop (lo.toNat + 256 * hi.toNat))
  | _, _ => []

def storedCodec : Codec (List UInt8 × Nat) :=
  online fun acc finish => if finish then stored acc.length acc else []

def unstoredCodec : Codec (List UInt8 × Nat) :=
  online fun acc _ => unstored acc.length acc

theorem unstored_block {n : Nat} {last : UInt8} {data rest : List UInt8}
    (h : data.length ≤ 65531) :
    unstored (n + 1) (block last data ++ rest) =
      data ++ if last = 1 then [] else unstored n rest := by
  have hlength : (UInt8.ofNat (data.length % 256)).toNat +
      256 * (UInt8.ofNat (data.length / 256)).toNat = data.length := by
    rw [UInt8.toNat_ofNat', UInt8.toNat_ofNat']
    omega
  simp only [block, List.cons_append, unstored, hlength, List.take_left, List.drop_left]

theorem unstored_stored {n m : Nat} {data : List UInt8} (hn : data.length ≤ 65531 * (n + 1))
    (hm : (stored n data).length ≤ m) : unstored m (stored n data) = data := by
  have hlast : ∀ {data : List UInt8} {m : Nat}, data.length ≤ 65531 → (block 1 data).length ≤ m →
      unstored m (block 1 data) = data := by
    intro data m hdata hm
    obtain ⟨k, rfl⟩ : ∃ k, m = k + 1 := Nat.exists_eq_add_one_of_ne_zero (by
      rintro rfl
      simp [block] at hm)
    have hblock : unstored (k + 1) (block 1 data ++ []) = _ := unstored_block hdata
    simpa using hblock
  induction n generalizing data m with
  | zero =>
    rw [stored] at hm ⊢
    exact hlast (by omega) hm
  | succ n ih =>
    rw [stored] at hm ⊢
    split
    · rename_i hle
      rw [if_pos hle] at hm
      exact hlast hle hm
    · rename_i hlarge
      rw [if_neg hlarge, List.length_append] at hm
      have htake : (data.take 65531).length = 65531 := by
        rw [List.length_take]
        omega
      obtain ⟨k, rfl⟩ : ∃ k, m = k + 1 := Nat.exists_eq_add_one_of_ne_zero (by
        rintro rfl
        simp [block] at hm)
      rw [unstored_block (Nat.le_of_eq htake), if_neg (by decide), ih, List.take_append_drop]
      · rw [List.length_drop]
        omega
      · simp only [block, List.length_cons, htake] at hm
        omega

/-- More of the stream gives more of the data. -/
theorem unstored_prefix {n m : Nat} (h : n ≤ m) (acc p : List UInt8) :
    unstored n acc <+: unstored m (acc ++ p) := by
  induction n generalizing m acc with
  | zero => exact List.nil_prefix
  | succ n ih =>
    obtain ⟨m, rfl⟩ := Nat.exists_eq_add_of_le' (Nat.lt_of_lt_of_le (Nat.succ_pos n) h)
    match acc with
    | last :: lo :: hi :: _ :: _ :: rest =>
      simp only [List.cons_append, unstored]
      generalize lo.toNat + 256 * hi.toNat = len
      by_cases hlen : len ≤ rest.length
      · rw [List.take_append_of_le_length hlen, List.drop_append_of_le_length hlen,
          List.prefix_append_right_inj]
        split
        · exact List.prefix_rfl
        · exact ih (by omega) _
      · have hdrop : rest.drop len = [] := List.drop_eq_nil_of_le (by omega)
        have hnil : unstored n [] = [] := by cases n <;> rfl
        rw [hdrop, hnil, ite_self, List.append_nil, List.take_of_length_le (by omega),
          List.take_append, List.take_of_length_le (by omega), List.append_assoc]
        exact List.prefix_append _ _
    | [] => exact List.nil_prefix
    | [_] => exact List.nil_prefix
    | [_, _] => exact List.nil_prefix
    | [_, _, _] => exact List.nil_prefix
    | [_, _, _, _] => exact List.nil_prefix

theorem inverts_stored : Inverts storedCodec ([], 0) unstoredCodec ([], 0) := by
  apply inverts_online
  · intro acc p finish
    simp
  · intro acc p finish
    exact unstored_prefix (by simp) acc p
  · rfl
  · rfl
  · intro data
    exact unstored_stored (by omega) (Nat.le_refl _)

theorem stored_codes {ps : List (List UInt8)} {bytes : List UInt8}
    (h : Codes storedCodec ([], 0) ps bytes) : bytes = stored ps.flatten.length ps.flatten :=
  h.online_eq (fun acc p finish => by simp) rfl

/-- Two bytes, one for each `write`, through buffers of four bytes and back through buffers of one. -/
theorem session_roundTrip_two :
    ∃ s, Returns storedCodec (create 4 ([], 0)) [[[104]], [[105]]] s ∧
      s.getResult = [1, 2, 0, 253, 255, 104, 105] ∧
      ∃ s', Returns unstoredCodec (create 1 ([], 0)) [[[1, 2, 0], [253, 255, 104, 105]]] s' ∧
        s'.getResult = [104, 105] := by
  have hz : storedCodec.accepts ([], 0) false := trivial
  have hy : unstoredCodec.accepts ([], 0) false := trivial
  have hb : (0 : UInt32) < 4 := by decide
  have hb' : (0 : UInt32) < 1 := by decide
  obtain ⟨s, hreturns, -, hcodes, hback⟩ :=
    session_roundTrip_iff hz hy inverts_stored hb hb' [[[104]], [[105]]]
  have hresult := stored_codes hcodes
  refine ⟨s, hreturns, hresult, ?_⟩
  obtain ⟨s', hreturns', -, -, hdata⟩ := hback.mpr (by simp) [[[1, 2, 0], [253, 255, 104, 105]]]
    hresult.symm (by simp)
  exact ⟨s', hreturns', hdata⟩

/-- `avail_in` of a buffer of 4 GiB is zero: the stream is that of no data. -/
theorem not_roundTrip_large :
    ∃ s, Returns storedCodec (create 4096 ([], 0)) [[List.replicate 4294967296 104]] s ∧
      s.getResult = [1, 0, 0, 255, 255] ∧
      ∃ s', Returns unstoredCodec (create 4096 ([], 0)) [[s.getResult]] s' ∧
        s'.getResult ≠ List.replicate 4294967296 104 := by
  have hempty : availIn (List.replicate 4294967296 104) = [] := by
    rw [availIn, List.length_replicate, Nat.mod_self, List.take_zero]
  obtain ⟨s, hreturns, -, hcodes⟩ := session_create (c := storedCodec) (b := 4096)
    (z := ([], 0)) trivial (by decide) [[List.replicate 4294967296 104]]
  have hpieces : [[List.replicate 4294967296 (104 : UInt8)]].flatten.map availIn = [[]] := by
    rw [List.flatten_singleton, List.map_singleton, hempty]
  rw [hpieces] at hcodes
  have hresult : s.getResult = [1, 0, 0, 255, 255] := stored_codes hcodes
  obtain ⟨s', hreturns', -, hcodes'⟩ := session_create (c := unstoredCodec) (b := 4096)
    (z := ([], 0)) trivial (by decide) [[s.getResult]]
  have hsmall : [[s.getResult]].flatten.map availIn = [s.getResult] := by
    apply map_availIn
    simp [hresult]
  rw [hsmall] at hcodes'
  have hdata := inverts_stored _ _ hcodes _ _ (List.flatten_singleton) hcodes'
  refine ⟨s, hreturns, hresult, s', hreturns', ?_⟩
  intro heq
  have hlength := congrArg List.length (hdata.symm.trans heq)
  rw [List.length_replicate] at hlength
  cases hlength

end Stored

end ZlibStream

end CxkFramework
