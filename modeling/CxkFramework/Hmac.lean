import CxkFramework.Blocks

/-!
# HMAC

The template `hmac` over the three functions of a hash, and the construction of RFC 2104.
-/

namespace CxkFramework.Hmac

open Blocks

/-- `Init`, `Update` and `Final` of a hash with contexts in `CTX`. `Init` sets up a context whatever
is in it. -/
structure HashApi (CTX : Type*) where
  Init : CTX → CTX
  Update : CTX → List UInt8 → CTX
  /-- the digest that is written, and the context -/
  Final : CTX → List UInt8 × CTX

variable {CTX : Type*}

/-- `Final` writes the digest, of `L` bytes, of all that `Update` was called with since `Init`. -/
structure Computes (api : HashApi CTX) (H : List UInt8 → List UInt8) (L : UInt32) : Prop where
  final_eq : ∀ (ctx : CTX) (updates : List (List UInt8)),
    (api.Final (updates.foldl api.Update (api.Init ctx))).1 = H updates.flatten
  length_eq : ∀ x, (H x).length = L.toNat

/-! ## The code -/

/-- `s.resize(n)` -/
def resize (s : List UInt8) (n : UInt32) : List UInt8 :=
  s.take n.toNat ++ List.replicate (n.toNat - s.length) 0

/-- The operator of `xorStruct`. -/
def xorStruct (value c : UInt8) : UInt8 := c ^^^ value

/-- `B - keyLocal.size()`, in 64 bits. -/
def missing (B : UInt32) (keyLocal : List UInt8) : Nat :=
  (B.toNat + 2 ^ 64 - keyLocal.length) % 2 ^ 64

section

variable (api : HashApi CTX) (B L : UInt32) (ctx : CTX) (text key : List UInt8)

/-- `keyLocal` before it is filled up. -/
def keyLocal : List UInt8 × CTX :=
  if key.length > B.toNat then
    let ctx := api.Update (api.Init ctx) key
    let (digest, ctx) := api.Final ctx
    (overwrite (resize key L) 0 digest, ctx)
  else (key, ctx)

def hmac : List UInt8 :=
  let (keyLocal, ctx) := keyLocal api B L ctx key
  let keyLocal := keyLocal ++ List.replicate (missing B keyLocal) 0
  let ipad := keyLocal.map (xorStruct 0x36)
  let opad := keyLocal.map (xorStruct 0x5c)
  let ctx := api.Update (api.Update (api.Init ctx) (ipad.take B.toNat)) text
  let (digest, ctx) := api.Final ctx
  let result := overwrite (resize [] L) 0 digest
  let ctx := api.Update (api.Update (api.Init ctx) (opad.take B.toNat)) (result.take L.toNat)
  overwrite result 0 (api.Final ctx).1

end

/-- `MD5_CBLOCK` and `MD5_DIGEST_LENGTH` -/
def hmacMd5 (api : HashApi CTX) : CTX → List UInt8 → List UInt8 → List UInt8 := hmac api 64 16

def hmacSha1 (api : HashApi CTX) : CTX → List UInt8 → List UInt8 → List UInt8 := hmac api 64 20

def hmacSha256 (api : HashApi CTX) : CTX → List UInt8 → List UInt8 → List UInt8 := hmac api 64 32

/-! ## The construction -/

/-- The key, or its digest when it is longer than a block, with zeros up to a block. -/
def keyBlock (H : List UInt8 → List UInt8) (B : Nat) (key : List UInt8) : List UInt8 :=
  let short := if key.length > B then H key else key
  short ++ List.replicate (B - short.length) 0

def rfc2104 (H : List UInt8 → List UInt8) (B : Nat) (text key : List UInt8) : List UInt8 :=
  H ((keyBlock H B key).map (· ^^^ 0x5c) ++ H ((keyBlock H B key).map (· ^^^ 0x36) ++ text))

section

variable {api : HashApi CTX} {H : List UInt8 → List UInt8} {B L : UInt32}

theorem length_resize (s : List UInt8) (n : UInt32) : (resize s n).length = n.toNat := by
  simp only [resize, List.length_append, List.length_take, List.length_replicate]
  omega

theorem overwrite_whole {xs ys : List UInt8} (h : xs.length = ys.length) :
    overwrite xs 0 ys = ys := by
  rw [overwrite, List.take_zero, List.nil_append, Nat.zero_add, ← h, List.drop_length,
    List.append_nil]

theorem Computes.one (h : Computes api H L) (ctx : CTX) (x : List UInt8) :
    (api.Final (api.Update (api.Init ctx) x)).1 = H x := by
  have hone := h.final_eq ctx [x]
  rwa [List.flatten_singleton] at hone

theorem Computes.two (h : Computes api H L) (ctx : CTX) (x y : List UInt8) :
    (api.Final (api.Update (api.Update (api.Init ctx) x) y)).1 = H (x ++ y) := by
  have htwo := h.final_eq ctx [x, y]
  rwa [List.flatten_cons, List.flatten_singleton] at htwo

theorem keyLocal_eq (h : Computes api H L) (ctx : CTX) (key : List UInt8) :
    (keyLocal api B L ctx key).1 = if key.length > B.toNat then H key else key := by
  have hlength : (resize key L).length = (H key).length := by
    rw [length_resize, h.length_eq]
  rw [keyLocal]
  split
  · simp only [h.one, overwrite_whole hlength]
  · rfl

/-- There is always room for the key. -/
theorem length_keyLocal (h : Computes api H L) (hle : L ≤ B) (ctx : CTX) (key : List UInt8) :
    (keyLocal api B L ctx key).1.length ≤ B.toNat := by
  rw [keyLocal_eq h]
  split
  · rw [h.length_eq]
    exact UInt32.le_iff_toNat_le.mp hle
  · omega

theorem missing_eq {keyLocal : List UInt8} (h : keyLocal.length ≤ B.toNat) :
    missing B keyLocal = B.toNat - keyLocal.length := by
  have hB := B.toNat_lt
  rw [missing]
  omega

theorem padded_keyLocal (h : Computes api H L) (hle : L ≤ B) (ctx : CTX) (key : List UInt8) :
    (keyLocal api B L ctx key).1 ++
        List.replicate (missing B (keyLocal api B L ctx key).1) 0 = keyBlock H B.toNat key := by
  rw [missing_eq (length_keyLocal h hle ctx key), keyLocal_eq h, keyBlock]

theorem length_keyBlock (h : Computes api H L) (hle : L ≤ B) (key : List UInt8) :
    (keyBlock H B.toNat key).length = B.toNat := by
  have hL := UInt32.le_iff_toNat_le.mp hle
  have hdigest := h.length_eq key
  rw [keyBlock]
  simp only [List.length_append, List.length_replicate]
  split <;> omega

/-- What is computed is the construction, and no more is taken from the size of a block than there
is. -/
theorem hmac_eq_rfc2104 (h : Computes api H L) (hle : L ≤ B) (ctx : CTX) (text key : List UInt8) :
    hmac api B L ctx text key = rfc2104 H B.toNat text key ∧
      (keyLocal api B L ctx key).1.length ≤ B.toNat := by
  have hblock := length_keyBlock h hle key
  have hpad (value : UInt8) : ((keyBlock H B.toNat key).map (xorStruct value)).take B.toNat =
      (keyBlock H B.toNat key).map (· ^^^ value) := by
    rw [List.take_of_length_le (by rw [List.length_map, hblock])]
    rfl
  have hresult (x : List UInt8) : overwrite (resize [] L) 0 (H x) = H x :=
    overwrite_whole (by rw [length_resize, h.length_eq])
  have hdigest (x : List UInt8) : (H x).take L.toNat = H x :=
    List.take_of_length_le (by rw [h.length_eq])
  have hagain (x y : List UInt8) : overwrite (H x) 0 (H y) = H y :=
    overwrite_whole (by rw [h.length_eq, h.length_eq])
  constructor
  · simp only [hmac, padded_keyLocal h hle, hpad, h.two, hresult, hdigest, hagain]
    rfl
  · exact length_keyLocal h hle ctx key

end

/-! ## A digest -/

/-- A context that keeps everything it gets. -/
def keeping (H : List UInt8 → List UInt8) : HashApi (List UInt8) where
  Init _ := []
  Update ctx data := ctx ++ data
  Final ctx := (H ctx, ctx)

theorem computes_keeping {H : List UInt8 → List UInt8} {L : UInt32}
    (hlength : ∀ x, (H x).length = L.toNat) : Computes (keeping H) H L where
  final_eq ctx updates := by
    have hfold (front : List UInt8) :
        updates.foldl (keeping H).Update front = front ++ updates.flatten := by
      induction updates generalizing front with
      | nil => simp
      | cons data updates ih =>
        rw [List.foldl_cons, ih, List.flatten_cons, ← List.append_assoc]
        rfl
    show H (updates.foldl (keeping H).Update []) = H updates.flatten
    rw [hfold, List.nil_append]
  length_eq := hlength

/-- `"Hi There"` -/
def hiThere : List UInt8 := [72, 105, 32, 84, 104, 101, 114, 101]

def inner : List UInt8 :=
  [144, 29, 35, 115, 46, 220, 192, 241, 161, 6, 83, 47, 107, 229, 236, 235]

def outer : List UInt8 :=
  [146, 148, 114, 122, 54, 56, 187, 28, 19, 244, 142, 248, 21, 139, 252, 157]

/-- MD5 on the two messages that `hiThere` needs with the key of sixteen bytes 11. -/
def md5 (x : List UInt8) : List UInt8 :=
  if x = List.replicate 16 61 ++ List.replicate 48 0x36 ++ hiThere then inner
  else if x = List.replicate 16 87 ++ List.replicate 48 0x5c ++ inner then outer
  else List.replicate 16 0

theorem length_md5 (x : List UInt8) : (md5 x).length = (16 : UInt32).toNat := by
  rw [md5]
  split
  · rfl
  · split <;> rfl

theorem hmac_eq_rfc2104_md5 :
    hmacMd5 (keeping md5) [] hiThere (List.replicate 16 11) = outer ∧
      (keyLocal (keeping md5) 64 16 [] (List.replicate 16 11)).1.length ≤ 64 := by
  obtain ⟨heq, hle⟩ := hmac_eq_rfc2104 (computes_keeping length_md5)
    (show (16 : UInt32) ≤ 64 by decide) [] hiThere (List.replicate 16 11)
  constructor
  · rw [hmacMd5, heq]
    decide
  · exact hle

end CxkFramework.Hmac
