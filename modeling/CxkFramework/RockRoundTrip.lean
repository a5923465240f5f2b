import CxkFramework.RockProtocol

/-!
# Rock messages across a stream

What a message is on the wire, and when a list of messages that is sent over a reliable
stream arrives as it was: every `write` of the sender finds room, the array of the receiver
can take the bytes in one request, and every `read` of the fields stays in its node, starts
at one or is saved by a coincidence.
-/

namespace CxkFramework

open Words Blocks Runs
open CxkFramework.ByteArray

namespace RockMessage

/-- The numbers a message starts with. -/
def numbers (msg : RockMessage) : List Value :=
  match msg with
  | .request m => [.fuint8 msg.getType, .uint32 m.sn, .uint32 m.cmd]
  | .response m => [.fuint8 msg.getType, .uint32 m.sn, .uint32 m.cmd, .uint32 m.result]
  | .notify m => [.fuint8 msg.getType, .uint32 m.notify]

/-- The strings it ends with. -/
def strings : RockMessage → List Value
  | .request m => [.stringVint m.body]
  | .response m => [.stringVint m.resultStr, .stringVint m.body]
  | .notify m => [.stringVint m.body]

/-- The typed writes of a message. -/
def values (msg : RockMessage) : List Value := msg.numbers ++ msg.strings

/-- The encoded message. -/
def plain (msg : RockMessage) : List UInt8 := encode .big msg.values

theorem serializeFields_eq (msg : RockMessage) (ba : ByteArray) :
    msg.serializeFields ba = ba.writeAll msg.values := by
  have hret : ∀ x : Except Fault ByteArray, (do let ba ← x; Except.ok ba) = x := by
    intro x
    cases x <;> rfl
  cases msg <;>
    simp only [serializeFields, Request.serializeToByteArray, Response.serializeToByteArray,
      Notify.serializeToByteArray, RockBody.serializeToByteArray, values, numbers, strings,
      List.cons_append, List.nil_append, writeAll, writeValue, bind_assoc, hret]

theorem caught_eq_some {α : Type} {x : Except Fault (Option α)} {a : α} :
    caught none x = .ok (some a) ↔ x = .ok (some a) := by
  cases x with
  | ok a => rfl
  | error e => cases e <;> simp [caught]

/-- One typed read in front of others. -/
theorem readAll_cons_eq {α : Type} {f : α → Value} (hf : Function.Injective f) {k : Kind}
    {read : ByteArray → Except Fault (α × ByteArray)} (hk : ∀ ba, readValue ba k = tag f (read ba))
    {ba ba' : ByteArray} {ks : List Kind} {vs : List Value} {x : α} :
    ba.readAll (k :: ks) = .ok (f x :: vs, ba') ↔
      ∃ ba₁, read ba = .ok (x, ba₁) ∧ ba₁.readAll ks = .ok (vs, ba') := by
  simp only [readAll, hk, tag, bind_eq_ok, Prod.exists, Except.ok.injEq, Prod.mk.injEq,
    List.cons.injEq]
  constructor
  · rintro ⟨v, ba₁, ⟨y, ba₂, hy, rfl, rfl⟩, us, ba₃, hus, ⟨hv, rfl⟩, rfl⟩
    cases hf hv
    exact ⟨_, hy, hus⟩
  · rintro ⟨ba₁, hx, hrest⟩
    exact ⟨_, _, ⟨_, _, hx, rfl, rfl⟩, _, _, hrest, ⟨rfl, rfl⟩, rfl⟩

theorem readAll_fuint8 {ba ba' : ByteArray} {ks : List Kind} {vs : List Value} {x : UInt8} :
    ba.readAll (.fuint8 :: ks) = .ok (.fuint8 x :: vs, ba') ↔
      ∃ ba₁, ba.readFuint8 = .ok (x, ba₁) ∧ ba₁.readAll ks = .ok (vs, ba') :=
  readAll_cons_eq (fun _ _ h => by cases h; rfl) (fun _ => rfl)

theorem readAll_uint32 {ba ba' : ByteArray} {ks : List Kind} {vs : List Value} {x : UInt32} :
    ba.readAll (.uint32 :: ks) = .ok (.uint32 x :: vs, ba') ↔
      ∃ ba₁, ba.readUint32 = .ok (x, ba₁) ∧ ba₁.readAll ks = .ok (vs, ba') :=
  readAll_cons_eq (fun _ _ h => by cases h; rfl) (fun _ => rfl)

theorem readAll_stringVint {ba ba' : ByteArray} {ks : List Kind} {vs : List Value}
    {x : List UInt8} : ba.readAll (.stringVint :: ks) = .ok (.stringVint x :: vs, ba') ↔
      ∃ ba₁, ba.readStringVint = .ok (x, ba₁) ∧ ba₁.readAll ks = .ok (vs, ba') :=
  readAll_cons_eq (fun _ _ h => by cases h; rfl) (fun _ => rfl)

theorem readAll_of_parseFields {msg : RockMessage} {type : UInt8} {ba : ByteArray}
    (h : parseFields type ba = .ok (some msg)) : type = msg.getType ∧
      ∃ ba', ba.readAll (msg.values.tail.map Value.kind) = .ok (msg.values.tail, ba') := by
  rw [parseFields] at h
  split at h
  · next ht =>
    simp only [caught_eq_some, Request.parseFromByteArray, RockBody.parseFromByteArray, bind_eq_ok,
      Prod.exists, Except.ok.injEq, Option.some.injEq, Prod.mk.injEq] at h
    obtain ⟨sn, cmd, ba₂, ⟨_, _, hsn, _, _, hcmd, ⟨rfl, rfl⟩, rfl⟩, body, ba', hbody, rfl⟩ := h
    refine ⟨ht, ba', ?_⟩
    exact readAll_uint32.mpr ⟨_, hsn, readAll_uint32.mpr ⟨_, hcmd,
      readAll_stringVint.mpr ⟨_, hbody, rfl⟩⟩⟩
  · split at h
    · next ht =>
      simp only [caught_eq_some, Response.parseFromByteArray, RockBody.parseFromByteArray,
        bind_eq_ok, Prod.exists, Except.ok.injEq, Option.some.injEq, Prod.mk.injEq] at h
      obtain ⟨sn, cmd, result, str, ba₂, ⟨_, _, hsn, _, _, hcmd, _, _, hresult, _, _, hstr,
        ⟨rfl, rfl, rfl, rfl⟩, rfl⟩, body, ba', hbody, rfl⟩ := h
      refine ⟨ht, ba', ?_⟩
      exact readAll_uint32.mpr ⟨_, hsn, readAll_uint32.mpr ⟨_, hcmd,
        readAll_uint32.mpr ⟨_, hresult, readAll_stringVint.mpr ⟨_, hstr,
        readAll_stringVint.mpr ⟨_, hbody, rfl⟩⟩⟩⟩⟩
    · split at h
      · next ht =>
        simp only [caught_eq_some, Notify.parseFromByteArray, RockBody.parseFromByteArray,
          bind_eq_ok, Prod.exists, Except.ok.injEq, Option.some.injEq] at h
        obtain ⟨number, ba₂, hnumber, body, ba', hbody, rfl⟩ := h
        refine ⟨ht, ba', ?_⟩
        exact readAll_uint32.mpr ⟨_, hnumber, readAll_stringVint.mpr ⟨_, hbody, rfl⟩⟩
      · cases h

theorem parseFields_of_readAll {msg : RockMessage} {ba ba' : ByteArray}
    (h : ba.readAll (msg.values.tail.map Value.kind) = .ok (msg.values.tail, ba')) :
    parseFields msg.getType ba = .ok (some msg) := by
  rw [parseFields]
  cases msg with
  | request m =>
    obtain ⟨_, hsn, h⟩ := readAll_uint32.mp h
    obtain ⟨_, hcmd, h⟩ := readAll_uint32.mp h
    obtain ⟨_, hbody, -⟩ := readAll_stringVint.mp h
    rw [getType, if_pos rfl, caught_eq_some, Request.parseFromByteArray]
    simp only [hsn, hcmd, RockBody.parseFromByteArray, hbody, ok_bind]
  | response m =>
    obtain ⟨_, hsn, h⟩ := readAll_uint32.mp h
    obtain ⟨_, hcmd, h⟩ := readAll_uint32.mp h
    obtain ⟨_, hresult, h⟩ := readAll_uint32.mp h
    obtain ⟨_, hstr, h⟩ := readAll_stringVint.mp h
    obtain ⟨_, hbody, -⟩ := readAll_stringVint.mp h
    rw [getType, if_neg (by decide), if_pos rfl, caught_eq_some, Response.parseFromByteArray]
    simp only [hsn, hcmd, hresult, hstr, RockBody.parseFromByteArray, hbody, ok_bind]
  | notify m =>
    obtain ⟨_, hnumber, h⟩ := readAll_uint32.mp h
    obtain ⟨_, hbody, -⟩ := readAll_stringVint.mp h
    rw [getType, if_neg (by decide), if_neg (by decide), if_pos rfl, caught_eq_some,
      Notify.parseFromByteArray]
    simp only [hnumber, RockBody.parseFromByteArray, hbody, ok_bind]

theorem parseMessage_eq_some (msg : RockMessage) (ba : ByteArray) :
    parseMessage ba = .ok (some msg) ↔
      ∃ ba', ba.readAll (msg.values.map Value.kind) = .ok (msg.values, ba') := by
  have hhead : msg.values = .fuint8 msg.getType :: msg.values.tail := by cases msg <;> rfl
  rw [parseMessage, bind_eq_ok, hhead, List.map_cons, Value.kind]
  simp only [readAll_fuint8, Prod.exists]
  constructor
  · rintro ⟨type, ba₁, htype, h⟩
    obtain ⟨rfl, ba', hrest⟩ := readAll_of_parseFields h
    exact ⟨ba', ba₁, htype, hrest⟩
  · rintro ⟨ba', ba₁, htype, h⟩
    exact ⟨_, ba₁, htype, parseFields_of_readAll h⟩

/-! ## The fields -/

theorem shape_numbers (msg : RockMessage) :
    ∀ v ∈ msg.numbers, v.kind.shape = .word 1 ∨ v.kind.shape = .groups 32 5 := by
  cases msg <;> simp [numbers, Value.kind, Kind.shape]

theorem shape_strings (msg : RockMessage) : ∀ v ∈ msg.strings, v.kind.shape = .string 8 := by
  cases msg <;> simp [strings, Value.kind, Kind.shape]

theorem short_numbers (msg : RockMessage) : ∀ v ∈ msg.numbers, v.Short := by
  intro v hv
  rw [Value.Short]
  rcases msg.shape_numbers v hv with h | h <;> rw [h] <;> trivial

theorem readChunks_numbers (msg : RockMessage) :
    ∀ chunk ∈ readChunksOf .big msg.numbers, chunk ≠ [] := by
  intro chunk hc
  obtain ⟨v, hv, hc⟩ := List.mem_flatMap.mp hc
  rw [Value.readChunks] at hc
  apply List.length_pos_iff.mp
  rcases msg.shape_numbers v hv with h | h <;> rw [h] at hc
  · rw [List.mem_singleton.mp hc, length_swapBytes]
    exact Nat.one_pos
  · obtain ⟨b, -, rfl⟩ := List.mem_map.mp hc
    exact Nat.one_pos

theorem length_numbers (msg : RockMessage) : (encode .big msg.numbers).length ≤ 16 := by
  have hone : ∀ x : UInt8, ((Value.fuint8 x).chunks .big).flatten.length = 1 := fun x => rfl
  have hfive : ∀ x : UInt32, ((Value.uint32 x).chunks .big).flatten.length ≤ 5 := by
    intro x
    have := length_groups_le 5 x.toNat
    simpa [Value.chunks, Value.kind, Kind.shape, Value.word] using this
  cases msg with
  | request m =>
    have := hfive m.sn
    have := hfive m.cmd
    simp only [numbers, encode_cons, encode_nil, List.length_append, hone, List.length_nil]
    omega
  | response m =>
    have := hfive m.sn
    have := hfive m.cmd
    have := hfive m.result
    simp only [numbers, encode_cons, encode_nil, List.length_append, hone, List.length_nil]
    omega
  | notify m =>
    have := hfive m.notify
    simp only [numbers, encode_cons, encode_nil, List.length_append, hone, List.length_nil]
    omega

theorem plain_ne_nil (msg : RockMessage) : msg.plain ≠ [] := by
  cases msg <;> simp [plain, values, numbers, Value.chunks, Value.kind, Kind.shape, swapBytes,
    leBytes]

/-- A length prefix of eight bytes holds whatever length memory does. -/
theorem short_values {msg : RockMessage} (h : msg.plain.length < 2 ^ 64) :
    ∀ v ∈ msg.values, v.Short := by
  intro v hv
  rcases List.mem_append.mp hv with hn | hs
  · exact msg.short_numbers v hn
  · have hshape := msg.shape_strings v hs
    have hle : v.str.length ≤ msg.plain.length := by
      obtain ⟨as, bs, hsplit⟩ := List.append_of_mem hv
      rw [plain, hsplit, encode_append, encode_cons, Value.chunks, hshape]
      simp only [List.length_append, List.flatten_cons, List.flatten_nil, List.length_nil]
      omega
    rw [Value.Short, hshape]
    exact hle.trans_lt h

/-- The fields are read back from an array that holds the encoded message. -/
theorem parseMessage_ok {garbage : Nat → UInt8} {msg : RockMessage} {ba : ByteArray}
    (h : Synced garbage defaultBaseSize .big msg.plain 0 ba) (hlen : msg.plain.length < 2 ^ 64)
    (hk : ChunksRead garbage defaultBaseSize msg.plain 0 (readChunksOf .big msg.values)) :
    parseMessage ba = .ok (some msg) := by
  have hall : Synced garbage defaultBaseSize .big ([] ++ encode .big msg.values)
      ([] : List UInt8).length ba := h
  obtain ⟨ba', hok, -⟩ := hall.readAll_ok (short_values hlen) hk
  exact (parseMessage_eq_some msg ba).mpr ⟨ba', hok⟩

/-- The numbers are in the first node and the strings reach the end of the data whichever
bytes they are made of, so nothing but right reads gives the message back. -/
theorem chunksRead_of_parseMessage {garbage : Nat → UInt8} {msg : RockMessage} {ba : ByteArray}
    (h : Synced garbage defaultBaseSize .big msg.plain 0 ba)
    (hf : ChunksFit defaultBaseSize 0 (writeChunksOf .big msg.values))
    (hok : parseMessage ba = .ok (some msg)) :
    ChunksRead garbage defaultBaseSize msg.plain 0 (readChunksOf .big msg.values) := by
  obtain ⟨ba', hok⟩ := (parseMessage_eq_some msg ba).mp hok
  have hnumbers := msg.length_numbers
  rw [plain, values, encode_append] at h ⊢
  have hk : ChunksRead garbage defaultBaseSize
      ([] ++ (encode .big msg.numbers ++ encode .big msg.strings)) ([] : List UInt8).length
      (readChunksOf .big msg.numbers) := by
    apply chunksRead_first_node _ msg.readChunks_numbers
    rw [flatten_readChunksOf, List.length_nil, defaultBaseSize]
    omega
  have hall : Synced garbage defaultBaseSize .big
      ([] ++ (encode .big msg.numbers ++ encode .big msg.strings)) ([] : List UInt8).length ba := h
  exact hall.chunksRead_of_strings hf msg.short_numbers hk
    (fun u hu => ⟨8, msg.shape_strings u hu⟩) hok

/-! ## toByteArray -/

theorem filled_newByteArray (garbage : Nat → UInt8) :
    Filled garbage defaultBaseSize .big [] (newByteArray garbage) :=
  filled_ofBaseSize garbage (by decide)

theorem toByteArray_ok (garbage : Nat → UInt8) {msg : RockMessage}
    (hf : ChunksFit defaultBaseSize 0 (writeChunksOf .big msg.values)) :
    ∃ ba, msg.toByteArray garbage = .ok (some ba) ∧
      Filled garbage defaultBaseSize .big msg.plain ba := by
  have h := filled_newByteArray garbage
  obtain ⟨ba, hok, h'⟩ := h.writeChunks_ok hf
  refine ⟨ba, ?_, h'⟩
  rw [toByteArray, serializeFields_eq, h.writeAll_eq, hok]
  rfl

theorem chunksFit_of_toByteArray {garbage : Nat → UInt8} {msg : RockMessage} {ba : ByteArray}
    (hok : msg.toByteArray garbage = .ok (some ba)) :
    ChunksFit defaultBaseSize 0 (writeChunksOf .big msg.values) := by
  have h := filled_newByteArray garbage
  rw [toByteArray, caught_eq_some, serializeFields_eq, h.writeAll_eq, bind_eq_ok] at hok
  obtain ⟨ba', hok, -⟩ := hok
  exact h.chunksFit_of_ok hok

end RockMessage

/-! ## Compression -/

namespace Zlib

theorem chunkFits_mul {base k n : Nat} (hb : 0 < base) (hn : n ≤ base) :
    ChunkFits base (base * k) n := by
  rcases Nat.eq_zero_or_pos k with rfl | hk
  · exact .inl (by rw [Nat.mul_zero, free, if_pos rfl]; exact hn)
  · have hfree : free base (base * k) = 0 := by
      rw [free_of_pos (Nat.mul_pos hb hk), Nat.mul_mod_right, Nat.sub_zero, Nat.mod_self]
    rw [ChunkFits, hfree, Nat.sub_zero]
    omega

/-- Full buffers of the size of a node always find room. -/
theorem chunksFit_packed {base : Nat} (hb : 0 < base) {buffs : List (List UInt8)}
    (h : Packed base buffs) (k : Nat) : ChunksFit base (base * k) buffs := by
  induction buffs generalizing k with
  | nil => trivial
  | cons buff rest ih =>
    cases rest with
    | nil => exact ⟨chunkFits_mul hb h, trivial⟩
    | cons next rest =>
      obtain ⟨hlen, hrest⟩ := h
      refine ⟨chunkFits_mul hb hlen.le, ?_⟩
      rw [hlen, ← Nat.mul_succ]
      exact ih hrest (k + 1)

theorem packed_cut {n : Nat} (hn : 0 < n) (xs : List UInt8) : Packed n (cut n xs) := by
  induction h : xs.length using Nat.strong_induction_on generalizing xs with
  | _ k ih =>
    rcases Nat.eq_zero_or_pos xs.length with h0 | h0
    · have hnone : (xs.length + n - 1) / n = 0 := Nat.div_eq_of_lt (by omega)
      rw [cut, hnone]
      trivial
    · rcases Nat.lt_or_ge n xs.length with hlt | hge
      · have htake : (xs.take n).length = n := by rw [List.length_take]; omega
        have hdrop : (xs.drop n).length = xs.length - n := List.length_drop
        have hcut := cut_append htake (show 0 < (xs.drop n).length by omega) hn
        rw [List.take_append_drop] at hcut
        have hrest := ih (xs.drop n).length (by omega) _ rfl
        rw [hcut]
        cases hc : cut n (xs.drop n) with
        | nil => exact htake.le
        | cons next rest => exact ⟨htake, hc ▸ hrest⟩
      · rw [cut_within h0 hge]
        exact hge

theorem getByteArray_ok (garbage : Nat → UInt8) {buffs : List (List UInt8)}
    (h : Packed buffSize buffs) : ∃ ba, getByteArray garbage buffs = .ok ba ∧
      Synced garbage defaultBaseSize .big buffs.flatten 0 ba ∧ RepInv ba := by
  have hstart := RockMessage.filled_newByteArray garbage
  have hfit : ChunksFit defaultBaseSize 0 buffs := chunksFit_packed (by decide) h 0
  obtain ⟨ba, hok, hfilled⟩ := hstart.writeChunks_ok hfit
  obtain ⟨ba', hset, hsync⟩ := hfilled.rewind
  refine ⟨ba', ?_, hsync, (setPosition_keeps hfilled.shaped hfilled.repInv hset).2⟩
  rw [getByteArray, hok, ok_bind, hset]

theorem convert_ok {f : List (List UInt8) → Option (List (List UInt8))} {garbage : Nat → UInt8}
    (garbage' : Nat → UInt8) {stream : List UInt8} {ba : ByteArray}
    (h : Synced garbage defaultBaseSize .big stream 0 ba) (h0 : stream ≠ [])
    (hlen : stream.length < 2 ^ 64) {buffs : List (List UInt8)}
    (hf : f (cut defaultBaseSize stream) = some buffs) (hp : Packed buffSize buffs) :
    ∃ ba', convert f garbage' ba = .ok (some ba') ∧
      Synced garbage' defaultBaseSize .big buffs.flatten 0 ba' ∧ RepInv ba' := by
  obtain ⟨iovs, n, hget, hg⟩ := h.gather_all h0 (show stream.length ≤ 2 ^ 64 - 1 by omega)
  obtain ⟨ba', hok, h'⟩ := getByteArray_ok garbage' hp
  refine ⟨ba', ?_, h'⟩
  simp only [convert, hget, ok_bind, hg, hf, hok]

end Zlib

namespace RockMessageDecoder

open CxkFramework.Stream RockMessage

section

variable (z : Zlib) (config : RockConfig) (msg : RockMessage)

/-- The test of `serializeTo`; the length is cut down to 32 bits there. -/
def Compressed : Prop := UInt32.ofNat msg.plain.length ≥ config.gzipMinLength

instance : Decidable (Compressed config msg) := inferInstanceAs (Decidable (_ ≥ _))

/-- The bytes behind the header. -/
def payload : List UInt8 :=
  if Compressed config msg then ((z.encode (cut defaultBaseSize msg.plain)).getD []).flatten
  else msg.plain

def flag : UInt8 := if Compressed config msg then 1 else 0

/-- The header as it is sent. -/
def header : RockMsgHeader :=
  { flag := flag config msg
    length := byteswapOnLittleEndian (UInt32.ofNat (payload z config msg).length) }

/-- A message on the wire. -/
def frame : List UInt8 := (header z config msg).bytes ++ payload z config msg

/-- What the code relies on for the sizes of a message: they are sizes of objects in memory,
and the one in the header is below `2 ^ 32`, as every `rock.protocol.max_length` is. -/
structure Sized : Prop where
  plain_lt : msg.plain.length < 2 ^ 64
  payload_lt : (payload z config msg).length < 2 ^ 32

end

variable {z : Zlib} {config : RockConfig} {msg : RockMessage}

theorem payload_ne_nil (hz : z.Inverse) : payload z config msg ≠ [] := by
  rw [payload]
  split
  · obtain ⟨buffs, hok, -, hne⟩ := hz.encode_ok (cut defaultBaseSize msg.plain)
    rwa [hok, Option.getD_some]
  · exact msg.plain_ne_nil

/-! ## serializeTo -/

theorem prepare_ok (hz : z.Inverse) (garbage garbage' : Nat → UInt8) (hs : Sized z config msg)
    (hf : ChunksFit defaultBaseSize 0 (writeChunksOf .big msg.values)) :
    ∃ g ba, prepare z config garbage garbage' msg = .ok (some (flag config msg, ba)) ∧
      Synced g defaultBaseSize .big (payload z config msg) 0 ba ∧ RepInv ba := by
  obtain ⟨ba, hok, hfilled⟩ := toByteArray_ok garbage hf
  obtain ⟨ba₁, hset, hsync⟩ := hfilled.rewind
  have hrep := (setPosition_keeps hfilled.shaped hfilled.repInv hset).2
  by_cases hc : Compressed config msg
  · have hgzip : UInt32.ofNat ba₁.size ≥ config.gzipMinLength := by rw [hsync.size_eq]; exact hc
    obtain ⟨buffs, henc, hpacked, -⟩ := hz.encode_ok (cut defaultBaseSize msg.plain)
    obtain ⟨ba₂, hconv, h₂, hr₂⟩ :=
      Zlib.convert_ok garbage' hsync msg.plain_ne_nil hs.plain_lt henc hpacked
    refine ⟨garbage', ba₂, ?_, ?_, hr₂⟩
    · simp only [prepare, hok, ok_bind, hset, if_pos hgzip, hconv, flag, if_pos hc]
    · rwa [payload, if_pos hc, henc, Option.getD_some]
  · have hgzip : ¬UInt32.ofNat ba₁.size ≥ config.gzipMinLength := by rw [hsync.size_eq]; exact hc
    refine ⟨garbage, ba₁, ?_, ?_, hrep⟩
    · simp only [prepare, hok, ok_bind, hset, if_neg hgzip, flag, if_neg hc]
    · rwa [payload, if_neg hc]

theorem header_eq (z : Zlib) (config : RockConfig) (msg : RockMessage) : header z config msg =
    { flag := flag config msg, length := (header z config msg).length } := rfl

theorem length_header (z : Zlib) (config : RockConfig) (msg : RockMessage) :
    (header z config msg).bytes.length = 8 := by
  simp [RockMsgHeader.bytes, header]

theorem serializeTo_ok (hz : z.Inverse) (garbage garbage' : Nat → UInt8) (hs : Sized z config msg)
    (hf : ChunksFit defaultBaseSize 0 (writeChunksOf .big msg.values)) {rounds : Nat}
    (hrounds : 9 ≤ rounds) {s : Stream} (hrel : Reliable s) :
    ∃ rt s', serializeTo z config garbage garbage' rounds s msg = (.ok rt, s') ∧
      Sent s (frame z config msg) s' := by
  obtain ⟨g, ba, hprep, hsync, hrep⟩ := prepare_ok hz garbage garbage' hs hf
  have hlen := length_header z config msg
  obtain ⟨s₁, hhead, hsent₁⟩ := writeFixSize_reliable hrel
    (show (header z config msg).bytes.length < 2 ^ 64 by omega)
    (show (header z config msg).bytes.length < rounds by omega)
  have hpay := hs.payload_lt
  obtain ⟨ba', s₂, hbody, hsent₂, -⟩ := writeFixSizeByteArray_synced hsync hrep
    (hsent₁.reliable hrel) (show (payload z config msg).length < 2 ^ 63 by omega)
  have hread : ba.getReadSize = (payload z config msg).length := by
    rw [hsync.getReadSize_eq, Nat.sub_zero]
  have height : toInt ((header z config msg).bytes.length : Int) = 8 := by
    rw [hlen]
    exact toInt_of_lt (by omega) (by omega)
  refine ⟨if toInt (payload z config msg).length ≤ 0 then -1
    else toInt (RockMsgHeader.size + ba'.size), s₂, ?_, hsent₁.trans hsent₂⟩
  have hlength : byteswapOnLittleEndian (UInt32.ofNat ba.size) = (header z config msg).length := by
    rw [header, hsync.size_eq]
  rw [height] at hhead
  rw [serializeTo, hprep]
  dsimp only
  rw [hlength, ← header_eq, hhead]
  simp only [hread, hbody]
  rw [if_neg (by omega)]
  split <;> rfl

theorem chunksFit_of_prepare {garbage garbage' : Nat → UInt8} {o : Option (UInt8 × ByteArray)}
    (h : prepare z config garbage garbage' msg = .ok o) :
    ChunksFit defaultBaseSize 0 (writeChunksOf .big msg.values) := by
  obtain ⟨r, hr, h⟩ := bind_eq_ok.mp h
  cases r with
  | none => cases h
  | some ba => exact chunksFit_of_toByteArray hr

theorem chunksFit_of_serializeTo {garbage garbage' : Nat → UInt8} {rounds : Nat} {s s' : Stream}
    {rt : Int} (h : serializeTo z config garbage garbage' rounds s msg = (.ok rt, s')) :
    ChunksFit defaultBaseSize 0 (writeChunksOf .big msg.values) := by
  rw [serializeTo] at h
  cases hprep : prepare z config garbage garbage' msg with
  | error e =>
    rw [hprep] at h
    cases h
  | ok o => exact chunksFit_of_prepare hprep

/-! ## parseFrom -/

theorem toNat_byteswapOnLittleEndian (length : UInt32) :
    (byteswapOnLittleEndian length).toNat = byteswap 4 length.toNat := by
  have hlt := byteswap_lt 4 length.toNat
  rw [byteswapOnLittleEndian, UInt32.toNat_ofNat', Nat.mod_eq_of_lt (by omega)]

theorem byteswapOnLittleEndian_twice (length : UInt32) :
    byteswapOnLittleEndian (byteswapOnLittleEndian length) = length := by
  apply UInt32.toNat_inj.mp
  have hlt := length.toNat_lt
  rw [toNat_byteswapOnLittleEndian, toNat_byteswapOnLittleEndian, byteswap_byteswap,
    Nat.mod_eq_of_lt (by omega)]

theorem ofBytes_bytes (z : Zlib) (config : RockConfig) (msg : RockMessage) :
    RockMsgHeader.ofBytes (header z config msg).bytes = header z config msg := by
  rw [header_eq]
  simp [RockMsgHeader.ofBytes, RockMsgHeader.bytes]

/-- The length a receiver finds in the header. -/
theorem length_received (hs : Sized z config msg) :
    (byteswapOnLittleEndian (header z config msg).length).toNat = (payload z config msg).length := by
  have hlt := hs.payload_lt
  rw [header, byteswapOnLittleEndian_twice, UInt32.toNat_ofNat', Nat.mod_eq_of_lt hlt]

theorem parseFrom_frame (garbage garbage' : Nat → UInt8) {s : Stream} (hrel : Reliable s)
    {rest : List UInt8} (hin : s.input = frame z config msg ++ rest) :
    ∃ s₁, parseFrom z config garbage garbage' s = parseBody z config garbage garbage'
        (flag config msg) (byteswapOnLittleEndian (header z config msg).length) s₁ ∧
      Received s (header z config msg).bytes s₁ ∧ s₁.input = payload z config msg ++ rest := by
  have hlen := length_header z config msg
  rw [frame, List.append_assoc] at hin
  obtain ⟨s₁, hread, hrec⟩ := readFixSize_reliable hrel (by omega) hin
  have height : toInt ((header z config msg).bytes.length : Int) = 8 := by
    rw [hlen]
    exact toInt_of_lt (by omega) (by omega)
  rw [height, hlen] at hread
  refine ⟨s₁, ?_, hrec, ?_⟩
  · rw [parseFrom, RockMsgHeader.size, hread]
    dsimp only
    rw [if_neg (by omega), ofBytes_bytes, if_neg (by simp [header]), if_neg (by simp [header])]
    rfl
  · have hboth := hin.symm.trans hrec.input_eq
    rw [List.append_cancel_left_eq] at hboth
    exact hboth.symm

/-- Whatever was done to the bytes, the fields are read from the encoded message. -/
theorem parsePayload_filled (hz : z.Inverse) (hs : Sized z config msg) {garbage : Nat → UInt8}
    (garbage' : Nat → UInt8) {ba : ByteArray}
    (h : Filled garbage defaultBaseSize .big (payload z config msg) ba) :
    ∃ ba', parsePayload z garbage' (flag config msg) ba = parseMessage ba' ∧
      Synced (if Compressed config msg then garbage' else garbage) defaultBaseSize .big msg.plain 0
        ba' := by
  obtain ⟨ba₁, hset, hsync⟩ := h.rewind
  by_cases hc : Compressed config msg
  · obtain ⟨buffs, henc, -, -⟩ := hz.encode_ok (cut defaultBaseSize msg.plain)
    have hpay : payload z config msg = buffs.flatten := by
      rw [payload, if_pos hc, henc, Option.getD_some]
    obtain ⟨out, hdec, hpacked, hout⟩ := hz.decode_ok _ _ (cut defaultBaseSize (payload z config msg))
      henc (by rw [flatten_cut (by decide), hpay])
    have hlt := hs.payload_lt
    obtain ⟨ba₂, hconv, h₂, -⟩ := Zlib.convert_ok garbage' hsync (payload_ne_nil hz) (by omega) hdec
      hpacked
    rw [hout, flatten_cut (by decide)] at h₂
    refine ⟨ba₂, ?_, by rwa [if_pos hc]⟩
    have hflag : flag config msg &&& 1 ≠ 0 := by
      rw [flag, if_pos hc]
      decide
    simp only [parsePayload, hset, ok_bind, if_pos hflag, hconv]
  · refine ⟨ba₁, ?_, ?_⟩
    · have hflag : ¬flag config msg &&& 1 ≠ 0 := by
        rw [flag, if_neg hc]
        decide
      simp only [parsePayload, hset, ok_bind, if_neg hflag]
    · rwa [if_neg hc, payload, if_neg hc] at *

/-- When a message arrives as it was sent: every `write` of the sender finds room; the
receiver accepts the length, reads a positive one and finds room for all bytes at once; and
every `read` of the fields stays in its node, starts at one or is saved by a coincidence. -/
structure Carried (z : Zlib) (config : RockConfig) (garbage : Nat → UInt8) (msg : RockMessage) :
    Prop where
  fits : ChunksFit defaultBaseSize 0 (writeChunksOf .big msg.values)
  accepted : (payload z config msg).length < config.maxLength.toNat
  positive : (payload z config msg).length < 2 ^ 31
  room : ChunkFits defaultBaseSize 0 (payload z config msg).length
  reads : ChunksRead garbage defaultBaseSize msg.plain 0 (readChunksOf .big msg.values)

section Receiver

variable {s : Stream} {rest : List UInt8} (garbage garbage' : Nat → UInt8)

theorem parseBody_ok (hz : z.Inverse) (hs : Sized z config msg) (hrel : Reliable s)
    (hin : s.input = payload z config msg ++ rest)
    (hacc : (payload z config msg).length < config.maxLength.toNat)
    (hpos : (payload z config msg).length < 2 ^ 31)
    (hroom : ChunkFits defaultBaseSize 0 (payload z config msg).length) :
    ∃ ba' s', parseBody z config garbage garbage' (flag config msg)
        (byteswapOnLittleEndian (header z config msg).length) s =
        (caught none (parseMessage ba'), s') ∧
      Received s (payload z config msg) s' ∧
      Synced (if Compressed config msg then garbage' else garbage) defaultBaseSize .big msg.plain 0
        ba' := by
  have hlength := length_received hs
  have hne : 0 < (payload z config msg).length := List.length_pos_iff.mpr (payload_ne_nil hz)
  obtain ⟨ba, s', hread, hrec, hfilled⟩ := readFixSizeByteArray_filled
    (filled_newByteArray garbage) hrel hroom (payload_ne_nil hz) (by omega) hin
  obtain ⟨ba', hparse, hsync⟩ := parsePayload_filled hz hs garbage' hfilled
  refine ⟨ba', s', ?_, hrec, hsync⟩
  have hsize : toSize (byteswapOnLittleEndian (header z config msg).length) =
      (payload z config msg).length := by
    rw [toSize, hlength, if_pos hpos]
  have hint : toInt ((payload z config msg).length : Int) = (payload z config msg).length :=
    toInt_of_lt (by omega) (by omega)
  rw [parseBody, if_neg (by rw [ge_iff_le, UInt32.le_iff_toNat_le, hlength]; omega), hsize, hread,
    hint]
  dsimp only
  rw [if_neg (by omega), hparse]

/-- A length from `2 ^ 31` on is a negative `int32_t`; nothing is read for it. -/
theorem parseBody_negative (z : Zlib) (config : RockConfig) (garbage garbage' : Nat → UInt8)
    (flag : UInt8) (s : Stream) {length : UInt32} (h : 2 ^ 31 ≤ length.toNat) :
    (parseBody z config garbage garbage' flag length s).1 = .ok none := by
  have hlt := length.toNat_lt
  have hsize : toSize length = length.toNat + (2 ^ 64 - 2 ^ 32) := by
    rw [toSize, if_neg (by omega)]
  have hread : s.readFixSizeByteArray (newByteArray garbage) (toSize length) =
      (.ok (toInt (toSize length : Nat), newByteArray garbage), s) := by
    rw [readFixSizeByteArray, fixSize, if_neg (by omega)]
    rfl
  have hneg : toInt (toSize length : Nat) ≤ 0 := by
    rw [toInt, Int.bmod_def, hsize]
    split <;> omega
  rw [parseBody]
  split
  · rfl
  · rw [hread]
    dsimp only
    rw [if_pos hneg]

theorem parseFrom_ok (hz : z.Inverse) (hs : Sized z config msg) (hrel : Reliable s)
    (hin : s.input = frame z config msg ++ rest)
    (hc : Carried z config (if Compressed config msg then garbage' else garbage) msg) :
    ∃ s', parseFrom z config garbage garbage' s = (.ok (some msg), s') ∧
      Received s (frame z config msg) s' := by
  obtain ⟨s₁, hparse, hrec, hin₁⟩ := parseFrom_frame garbage garbage' hrel hin
  obtain ⟨ba', s', hbody, hrec', hsync⟩ := parseBody_ok garbage garbage' hz hs
    (hrec.reliable hrel) hin₁ hc.accepted hc.positive hc.room
  refine ⟨s', ?_, hrec.trans hrec'⟩
  rw [hparse, hbody, parseMessage_ok hsync hs.plain_lt hc.reads]
  rfl

/-- The converse: nothing else gives the message back. -/
theorem carried_of_parseFrom {garbage : Nat → UInt8} (hz : z.Inverse) (hs : Sized z config msg)
    (hrel : Reliable s)
    (hin : s.input = frame z config msg ++ rest)
    (hf : ChunksFit defaultBaseSize 0 (writeChunksOf .big msg.values)) {s' : Stream}
    (hok : parseFrom z config garbage garbage s = (.ok (some msg), s')) :
    Carried z config garbage msg := by
  obtain ⟨s₁, hparse, hrec, hin₁⟩ := parseFrom_frame garbage garbage hrel hin
  rw [hparse] at hok
  have hlength := length_received hs
  have hacc : (payload z config msg).length < config.maxLength.toNat := by
    by_contra hge
    rw [parseBody, if_pos (by rw [ge_iff_le, UInt32.le_iff_toNat_le, hlength]; omega)] at hok
    cases hok
  have hpos : (payload z config msg).length < 2 ^ 31 := by
    by_contra hge
    have hnone := parseBody_negative z config garbage garbage (flag config msg) s₁
      (show 2 ^ 31 ≤ (byteswapOnLittleEndian (header z config msg).length).toNat by omega)
    rw [hok] at hnone
    cases hnone
  have hroom : ChunkFits defaultBaseSize 0 (payload z config msg).length := by
    by_contra hno
    have hnull := readFixSizeByteArray_null (filled_newByteArray garbage)
      (hrec.reliable hrel).open_ hno (by omega)
    have hsize : toSize (byteswapOnLittleEndian (header z config msg).length) =
        (payload z config msg).length := by
      rw [toSize, hlength, if_pos hpos]
    rw [parseBody, if_neg (by rw [ge_iff_le, UInt32.le_iff_toNat_le, hlength]; omega), hsize,
      hnull] at hok
    cases hok
  obtain ⟨ba', s'', hbody, -, hsync⟩ := parseBody_ok garbage garbage hz hs
    (hrec.reliable hrel) hin₁ hacc hpos hroom
  rw [hbody, Prod.mk.injEq, caught_eq_some] at hok
  rw [ite_self] at hsync
  exact ⟨hf, hacc, hpos, hroom, chunksRead_of_parseMessage hsync hf hok.1⟩

end Receiver

/-! ## Lists of messages -/

/-- Over every pair of reliable streams, whatever they let through at once and whatever the
arrays of both sides hold at first: all messages are sent, and `parseFrom` called as often
returns them in order and takes exactly the bytes that were sent. -/
def RoundTrips (z : Zlib) (config : RockConfig) (msgs : List RockMessage) : Prop :=
  ∀ (memory memory' : Nat → Nat → UInt8) (rounds : Nat) (s r : Stream) (rest : List UInt8),
    9 ≤ rounds → Reliable s → Reliable r →
    ∃ rts sent s', serializeAll z config memory rounds 0 s msgs = (.ok rts, s') ∧
      s'.output = s.output ++ sent ∧ (r.input = sent ++ rest →
        ∃ r', parseAll z config memory' 0 msgs.length r = (.ok (msgs.map some), r') ∧
          r'.input = rest)

variable {msgs : List RockMessage}

theorem serializeAll_ok (hz : z.Inverse) (hs : ∀ msg ∈ msgs, Sized z config msg)
    (hf : ∀ msg ∈ msgs, ChunksFit defaultBaseSize 0 (writeChunksOf .big msg.values))
    (memory : Nat → Nat → UInt8) {rounds : Nat} (hrounds : 9 ≤ rounds) (k : Nat) {s : Stream}
    (hrel : Reliable s) :
    ∃ rts s', serializeAll z config memory rounds k s msgs = (.ok rts, s') ∧
      Sent s (msgs.flatMap (frame z config)) s' := by
  induction msgs generalizing k s with
  | nil => exact ⟨[], s, rfl, Sent.refl s⟩
  | cons msg msgs ih =>
    obtain ⟨rt, s₁, hok, hsent⟩ := serializeTo_ok hz (memory (2 * k)) (memory (2 * k + 1))
      (hs msg List.mem_cons_self) (hf msg List.mem_cons_self) hrounds hrel
    obtain ⟨rts, s', hoks, hsents⟩ := ih (fun m hm => hs m (List.mem_cons_of_mem msg hm))
      (fun m hm => hf m (List.mem_cons_of_mem msg hm)) (k + 1) (hsent.reliable hrel)
    refine ⟨rt :: rts, s', ?_, hsent.trans hsents⟩
    simp only [serializeAll, hok, hoks]

theorem chunksFit_of_serializeAll {memory : Nat → Nat → UInt8} {rounds k : Nat} {s s' : Stream}
    {rts : List Int} (h : serializeAll z config memory rounds k s msgs = (.ok rts, s')) :
    ∀ msg ∈ msgs, ChunksFit defaultBaseSize 0 (writeChunksOf .big msg.values) := by
  induction msgs generalizing k s s' rts with
  | nil => exact fun msg hm => absurd hm List.not_mem_nil
  | cons msg msgs ih =>
    rw [serializeAll] at h
    split at h
    · cases h
    · next hone =>
      split at h
      · cases h
      · next hrest =>
        intro m hm
        rcases List.mem_cons.mp hm with rfl | hm
        · exact chunksFit_of_serializeTo hone
        · exact ih hrest m hm

theorem parseAll_ok (hz : z.Inverse) (hs : ∀ msg ∈ msgs, Sized z config msg)
    (hc : ∀ msg ∈ msgs, ∀ garbage, Carried z config garbage msg) (memory : Nat → Nat → UInt8)
    (k : Nat) {r : Stream} (hrel : Reliable r) {rest : List UInt8}
    (hin : r.input = msgs.flatMap (frame z config) ++ rest) :
    ∃ r', parseAll z config memory k msgs.length r = (.ok (msgs.map some), r') ∧
      r'.input = rest := by
  induction msgs generalizing k r with
  | nil => exact ⟨r, rfl, by simpa using hin⟩
  | cons msg msgs ih =>
    rw [List.flatMap_cons, List.append_assoc] at hin
    obtain ⟨r₁, hok, hrec⟩ := parseFrom_ok (memory (2 * k)) (memory (2 * k + 1)) hz
      (hs msg List.mem_cons_self) hrel hin (hc msg List.mem_cons_self _)
    have hin₁ : r₁.input = msgs.flatMap (frame z config) ++ rest :=
      List.append_cancel_left (hrec.input_eq.symm.trans hin)
    obtain ⟨r', hoks, hrest⟩ := ih (fun m hm => hs m (List.mem_cons_of_mem msg hm))
      (fun m hm => hc m (List.mem_cons_of_mem msg hm)) (k + 1) (hrec.reliable hrel) hin₁
    exact ⟨r', by simp only [List.length_cons, parseAll, hok, hoks, List.map_cons], hrest⟩

theorem carried_of_parseAll (hz : z.Inverse) (hs : ∀ msg ∈ msgs, Sized z config msg)
    (hf : ∀ msg ∈ msgs, ChunksFit defaultBaseSize 0 (writeChunksOf .big msg.values))
    {garbage : Nat → UInt8} {k : Nat} {r r' : Stream} (hrel : Reliable r) {rest : List UInt8}
    (hin : r.input = msgs.flatMap (frame z config) ++ rest)
    (hok : parseAll z config (fun _ => garbage) k msgs.length r = (.ok (msgs.map some), r')) :
    ∀ msg ∈ msgs, Carried z config garbage msg := by
  induction msgs generalizing k r r' with
  | nil => exact fun msg hm => absurd hm List.not_mem_nil
  | cons msg msgs ih =>
    rw [List.flatMap_cons, List.append_assoc] at hin
    rw [List.length_cons, parseAll] at hok
    split at hok
    · cases hok
    · next got r₁ hone =>
      split at hok
      · cases hok
      · next gots r₂ hrest =>
        simp only [List.map_cons, Prod.mk.injEq, Except.ok.injEq, List.cons.injEq] at hok
        obtain ⟨⟨rfl, rfl⟩, rfl⟩ := hok
        have hs₁ := hs msg List.mem_cons_self
        have hc := carried_of_parseFrom hz hs₁ hrel hin (hf msg List.mem_cons_self) hone
        obtain ⟨r₃, hone', hrec⟩ := parseFrom_ok garbage garbage hz hs₁ hrel hin
          (by rw [ite_self]; exact hc)
        rw [hone] at hone'
        cases hone'
        have hin₁ : r₁.input = msgs.flatMap (frame z config) ++ rest :=
          List.append_cancel_left (hrec.input_eq.symm.trans hin)
        intro m hm
        rcases List.mem_cons.mp hm with rfl | hm
        · exact hc
        · exact ih (fun m hm => hs m (List.mem_cons_of_mem msg hm))
            (fun m hm => hf m (List.mem_cons_of_mem msg hm)) (hrec.reliable hrel) hin₁ hrest m hm

/-- A stream that never holds anything back. -/
def openStream (input : List UInt8) : Stream where
  input := input
  output := []
  readPlan _ := 2 ^ 31 - 1
  writePlan _ := 2 ^ 31 - 1
  reads := 0
  writes := 0
  closed := false

theorem reliable_openStream (input : List UInt8) : Reliable (openStream input) where
  open_ := rfl
  reads_ok _ := show 0 < (2 ^ 31 - 1 : Int32).toInt by decide
  writes_ok _ := show 0 < (2 ^ 31 - 1 : Int32).toInt by decide

theorem rock_roundTrips_iff (hz : z.Inverse) (hs : ∀ msg ∈ msgs, Sized z config msg) :
    RoundTrips z config msgs ↔ ∀ msg ∈ msgs, ∀ garbage, Carried z config garbage msg := by
  constructor
  · intro h msg hm garbage
    have hrel := reliable_openStream
    obtain ⟨rts, sent, s', hsend, hout, hparse⟩ := h (fun _ => garbage) (fun _ => garbage) 9
      (openStream []) (openStream (msgs.flatMap (frame z config))) [] le_rfl (hrel _) (hrel _)
    have hf := chunksFit_of_serializeAll hsend
    obtain ⟨rts', s'', hsend', hsent⟩ := serializeAll_ok hz hs hf (fun _ => garbage) le_rfl 0
      (hrel [])
    rw [hsend] at hsend'
    cases hsend'
    have heq : sent = msgs.flatMap (frame z config) :=
      List.append_cancel_left (hout.symm.trans hsent.output_eq)
    obtain ⟨r', hok, -⟩ := hparse (by rw [heq, List.append_nil]; rfl)
    exact carried_of_parseAll hz hs hf (hrel _)
      (show _ = msgs.flatMap (frame z config) ++ [] by rw [List.append_nil]; rfl) hok msg hm
  · intro hc memory memory' rounds s r rest hrounds hs' hr
    obtain ⟨rts, s', hsend, hsent⟩ := serializeAll_ok hz hs (fun msg hm => (hc msg hm (memory 0)).fits)
      memory hrounds 0 hs'
    exact ⟨rts, _, s', hsend, hsent.output_eq, parseAll_ok hz hs hc memory' 0 hr⟩

/-- In one node with a byte to spare everything fits and reads back. -/
theorem carried_of_small (garbage : Nat → UInt8) (hsmall : msg.plain.length < defaultBaseSize)
    (hc : ¬Compressed config msg) (hacc : msg.plain.length < config.maxLength.toNat) :
    Carried z config garbage msg where
  fits := chunksFit_one_node (by rw [Nat.zero_add]; exact hsmall.le)
  accepted := by rwa [payload, if_neg hc]
  positive := by
    rw [payload, if_neg hc]
    exact hsmall.trans (by decide)
  room := .inl (by rw [payload, if_neg hc]; exact hsmall.le)
  reads := chunksRead_one_node garbage hsmall (by rw [flatten_readChunksOf, Nat.zero_add]; rfl)

/-- Compression that does no more than put the magic bytes of gzip in front. -/
def magicOnly : Zlib where
  encode blocks := some (cut Zlib.buffSize (0x1f :: 0x8b :: blocks.flatten))
  decode blocks := some (cut Zlib.buffSize (blocks.flatten.drop 2))

theorem inverse_magicOnly : magicOnly.Inverse where
  encode_ok blocks := by
    refine ⟨_, rfl, Zlib.packed_cut (by decide) _, ?_⟩
    rw [flatten_cut (by decide)]
    exact List.cons_ne_nil _ _
  decode_ok blocks buffs blocks' henc hflat := by
    refine ⟨_, rfl, Zlib.packed_cut (by decide) _, ?_⟩
    cases henc
    rw [flatten_cut (by decide), hflat, flatten_cut (by decide)]
    rfl

/-- A request, its response and a notification. -/
def threeMessages : List RockMessage :=
  [.request { sn := 1, cmd := 2, body := [104, 105] },
    .response { sn := 1, cmd := 2, result := 0, resultStr := [111, 107], body := [] },
    .notify { notify := 300, body := [7] }]

theorem rock_roundTrips_three : RoundTrips magicOnly {} threeMessages := by
  have hsmall : ∀ msg ∈ threeMessages, msg.plain.length < 100 ∧ ¬Compressed {} msg := by
    decide
  refine (rock_roundTrips_iff inverse_magicOnly ?_).mpr ?_
  · intro msg hm
    obtain ⟨hlt, hc⟩ := hsmall msg hm
    exact ⟨by omega, by rw [payload, if_neg hc]; omega⟩
  · intro msg hm garbage
    obtain ⟨hlt, hc⟩ := hsmall msg hm
    exact carried_of_small garbage (hlt.trans (by decide)) hc (hlt.trans (by decide))

/-- A notification with a body of 4096 bytes. -/
def nodeMessage : RockMessage := .notify { notify := 1, body := List.replicate 4096 0 }

/-- With the default configuration `serializeTo` follows a null pointer for it: after ten
bytes of other fields `addCapacity` adds no node for the last ten of the body. -/
theorem not_rock_roundTrips_node :
    nodeMessage.plain.length < ({} : RockConfig).maxLength.toNat ∧
      (payload magicOnly {} nodeMessage).length < ({} : RockConfig).maxLength.toNat ∧
      ¬RoundTrips magicOnly {} [nodeMessage] := by
  refine ⟨by decide +kernel, by decide +kernel, fun h => ?_⟩
  obtain ⟨rts, sent, s', hsend, -⟩ := h (fun _ _ => 0) (fun _ _ => 0) 9 (openStream [])
    (openStream []) [] le_rfl (reliable_openStream _) (reliable_openStream _)
  have hf := chunksFit_of_serializeAll hsend _ List.mem_cons_self
  exact absurd hf (by decide +kernel)

end RockMessageDecoder

end CxkFramework
