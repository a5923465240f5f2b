import CxkFramework.HttpRequestRoundTrip
import CxkFramework.Runs

/-!
# Headers, parameters and cookies

The operations of `HttpRequest` on its three maps, over runs of calls. `delParam` erases the key from
the headers.
-/

namespace CxkFramework

open Runs

/-- A request with all of its maps. -/
structure HttpRequestMaps extends HttpRequest where
  params : List (List UInt8 × List UInt8)
  cookies : List (List UInt8 × List UInt8)

namespace HttpRequestMaps

/-! ## The operations -/

/-- The lookup behind `getHeader`, `getParam` and `getCookie`. -/
def get (m : List (List UInt8 × List UInt8)) (key defaultValue : List UInt8) : List UInt8 :=
  (OrderedMap.find caseInsensitiveLess key m).getD defaultValue

/-- The lookup behind `hasHeader`, `hasParam` and `hasCookie`: the result, and what is in `*val`
afterwards. -/
def has (m : List (List UInt8 × List UInt8)) (key val : List UInt8) : Bool × List UInt8 :=
  match OrderedMap.find caseInsensitiveLess key m with
  | none => (false, val)
  | some v => (true, v)

def getHeader (req : HttpRequestMaps) : List UInt8 → List UInt8 → List UInt8 := get req.headers

def getParam (req : HttpRequestMaps) : List UInt8 → List UInt8 → List UInt8 := get req.params

def getCookie (req : HttpRequestMaps) : List UInt8 → List UInt8 → List UInt8 := get req.cookies

def hasHeader (req : HttpRequestMaps) : List UInt8 → List UInt8 → Bool × List UInt8 :=
  has req.headers

def hasParam (req : HttpRequestMaps) : List UInt8 → List UInt8 → Bool × List UInt8 :=
  has req.params

def hasCookie (req : HttpRequestMaps) : List UInt8 → List UInt8 → Bool × List UInt8 :=
  has req.cookies

def setHeader (req : HttpRequestMaps) (key val : List UInt8) : HttpRequestMaps :=
  { req with headers := OrderedMap.insert caseInsensitiveLess key val req.headers }

def setParam (req : HttpRequestMaps) (key val : List UInt8) : HttpRequestMaps :=
  { req with params := OrderedMap.insert caseInsensitiveLess key val req.params }

def setCookie (req : HttpRequestMaps) (key val : List UInt8) : HttpRequestMaps :=
  { req with cookies := OrderedMap.insert caseInsensitiveLess key val req.cookies }

def delHeader (req : HttpRequestMaps) (key : List UInt8) : HttpRequestMaps :=
  { req with headers := OrderedMap.erase caseInsensitiveLess key req.headers }

/-- It names the headers. -/
def delParam (req : HttpRequestMaps) (key : List UInt8) : HttpRequestMaps :=
  { req with headers := OrderedMap.erase caseInsensitiveLess key req.headers }

def delCookie (req : HttpRequestMaps) (key : List UInt8) : HttpRequestMaps :=
  { req with cookies := OrderedMap.erase caseInsensitiveLess key req.cookies }

/-! ## Calls -/

inductive Kind where
  | header | param | cookie
  deriving DecidableEq, Repr

/-- A string without a zero. -/
structure Key where
  text : List UInt8
  no_zero : 0 ∉ text

/-- The key with its letters in lower case. -/
def Key.folded (key : Key) : List UInt8 :=
  key.text.map fun c => if 65 ≤ c ∧ c ≤ 90 then c + 32 else c

inductive Call where
  | set (kind : Kind) (key : Key) (val : List UInt8)
  | del (kind : Kind) (key : Key)
  | get (kind : Kind) (key : Key) (defaultValue : List UInt8)
  | has (kind : Kind) (key : Key) (val : List UInt8)

def set (req : HttpRequestMaps) : Kind → List UInt8 → List UInt8 → HttpRequestMaps
  | .header => req.setHeader
  | .param => req.setParam
  | .cookie => req.setCookie

def del (req : HttpRequestMaps) : Kind → List UInt8 → HttpRequestMaps
  | .header => req.delHeader
  | .param => req.delParam
  | .cookie => req.delCookie

def getOf (req : HttpRequestMaps) : Kind → List UInt8 → List UInt8 → List UInt8
  | .header => req.getHeader
  | .param => req.getParam
  | .cookie => req.getCookie

def hasOf (req : HttpRequestMaps) : Kind → List UInt8 → List UInt8 → Bool × List UInt8
  | .header => req.hasHeader
  | .param => req.hasParam
  | .cookie => req.hasCookie

/-- What a call leaves of the request. -/
def call (req : HttpRequestMaps) : Call → HttpRequestMaps
  | .set kind key val => req.set kind key.text val
  | .del kind key => req.del kind key.text
  | .get _ _ _ | .has _ _ _ => req

/-! ## Three maps -/

/-- Three maps keyed by folded keys. -/
abbrev Contents := Kind → List UInt8 → Option (List UInt8)

/-- What a call should do: the value of the last `set` since the last `del` of a folded key is the
one of the map, and the other maps are left alone. -/
def Contents.call (m : Contents) : Call → Contents
  | .set kind key val => fun kind' k => if kind' = kind ∧ k = key.folded then some val else m kind' k
  | .del kind key => fun kind' k => if kind' = kind ∧ k = key.folded then none else m kind' k
  | .get _ _ _ | .has _ _ _ => m

def mapOf (req : HttpRequestMaps) : Kind → List (List UInt8 × List UInt8)
  | .header => req.headers
  | .param => req.params
  | .cookie => req.cookies

/-- What a request holds. -/
def contents (req : HttpRequestMaps) : Contents :=
  fun kind k => OrderedMap.find caseInsensitiveLess k (req.mapOf kind)

/-- The request beside the three maps it should be. -/
def Step (s : HttpRequestMaps × Contents) (c : Call) (s' : HttpRequestMaps × Contents) : Prop :=
  s' = (s.1.call c, s.2.call c)

/-- All lookups answer with what the maps hold. -/
def Right (s : HttpRequestMaps × Contents) : Prop :=
  ∀ (kind : Kind) (key : Key) (v : List UInt8),
    s.1.getOf kind key.text v = (s.2 kind key.folded).getD v ∧
      s.1.hasOf kind key.text v = ((s.2 kind key.folded).isSome, (s.2 kind key.folded).getD v)

/-- No parameter is deleted under a key that the parameters or the headers have. -/
def DeletesNoParam (s : HttpRequestMaps × Contents) : Call → Prop
  | .del .param key => (s.1.hasParam key.text []).1 = false ∧ (s.1.hasHeader key.text []).1 = false
  | _ => True

/-! ## Keys -/

theorem Key.caseFolded_text (key : Key) : caseFolded key.text = key.folded := by
  rw [caseFolded, takeWhile_no_zero key.no_zero, Key.folded]

theorem Key.caseFolded_folded (key : Key) : caseFolded key.folded = key.folded := by
  have hall : ∀ i : Fin 256, UInt8.ofNat i ≠ 0 →
      (if 65 ≤ UInt8.ofNat i ∧ UInt8.ofNat i ≤ 90 then UInt8.ofNat i + 32 else UInt8.ofNat i) ≠ 0 ∧
        ¬(65 ≤ (if 65 ≤ UInt8.ofNat i ∧ UInt8.ofNat i ≤ 90 then UInt8.ofNat i + 32
            else UInt8.ofNat i) ∧
          (if 65 ≤ UInt8.ofNat i ∧ UInt8.ofNat i ≤ 90 then UInt8.ofNat i + 32
            else UInt8.ofNat i) ≤ 90) := by
    set_option maxRecDepth 1000 in decide
  have hlower (c : UInt8) (hc : c ∈ key.text) := hall ⟨c.toNat, c.toNat_lt⟩ (by
    rw [UInt8.ofNat_toNat]
    rintro rfl
    exact key.no_zero hc)
  simp only [UInt8.ofNat_toNat] at hlower
  have hzero : 0 ∉ key.folded := by
    intro hmem
    obtain ⟨c, hc, hfold⟩ := List.mem_map.mp hmem
    exact (hlower c hc).1 hfold
  rw [caseFolded, takeWhile_no_zero hzero, Key.folded, List.map_map]
  apply List.map_congr_left
  intro c hc
  exact if_neg (hlower c hc).2

theorem Key.same_iff (key key' : Key) :
    OrderedMap.same caseInsensitiveLess key.text key'.text = true ↔ key.folded = key'.folded := by
  rw [same_caseInsensitiveLess, Key.caseFolded_text, Key.caseFolded_text]

theorem Key.not_same {key key' : Key} (h : key.folded ≠ key'.folded) :
    OrderedMap.same caseInsensitiveLess key.text key'.text = false :=
  Bool.eq_false_iff.mpr fun hsame => h ((Key.same_iff key key').mp hsame)

/-! ## Steps -/

/-- Each map of the request has the entries of the map it should be. -/
def Holds (s : HttpRequestMaps × Contents) : Prop :=
  ∀ (kind : Kind) (key : Key),
    OrderedMap.find caseInsensitiveLess key.text (s.1.mapOf kind) = s.2 kind key.folded

theorem right_iff (s : HttpRequestMaps × Contents) : Right s ↔ Holds s := by
  have hget (kind : Kind) : s.1.getOf kind = get (s.1.mapOf kind) := by cases kind <;> rfl
  have hhas (kind : Kind) : s.1.hasOf kind = has (s.1.mapOf kind) := by cases kind <;> rfl
  constructor
  · intro h kind key
    have hpair (v : List UInt8) := (h kind key v).2
    simp only [hhas, has] at hpair
    cases hfind : OrderedMap.find caseInsensitiveLess key.text (s.1.mapOf kind) with
    | none =>
      simp only [hfind, Prod.mk.injEq] at hpair
      exact (Option.isSome_eq_false_iff.mp (hpair []).1.symm |> Option.isNone_iff_eq_none.mp).symm
    | some x =>
      simp only [hfind, Prod.mk.injEq] at hpair
      obtain ⟨y, hy⟩ := Option.isSome_iff_exists.mp (hpair []).1.symm
      rw [hy] at hpair ⊢
      rw [(hpair []).2]
      rfl
  · intro h kind key v
    rw [hget, hhas, get, has, h kind key]
    refine ⟨rfl, ?_⟩
    cases s.2 kind key.folded <;> rfl

theorem holds_contents (req : HttpRequestMaps) : Holds (req, req.contents) := by
  intro kind key
  apply OrderedMap.find_congr strictWeak_caseInsensitiveLess
  rw [same_caseInsensitiveLess, Key.caseFolded_text, Key.caseFolded_folded]

theorem mapOf_set (req : HttpRequestMaps) (kind kind' : Kind) (key val : List UInt8) :
    (req.set kind key val).mapOf kind' =
      if kind' = kind then OrderedMap.insert caseInsensitiveLess key val (req.mapOf kind')
      else req.mapOf kind' := by
  cases kind <;> cases kind' <;> rfl

theorem mapOf_del (req : HttpRequestMaps) {kind : Kind} (hkind : kind ≠ .param) (kind' : Kind)
    (key : List UInt8) :
    (req.del kind key).mapOf kind' =
      if kind' = kind then OrderedMap.erase caseInsensitiveLess key (req.mapOf kind')
      else req.mapOf kind' := by
  cases kind with
  | param => exact absurd rfl hkind
  | header => cases kind' <;> rfl
  | cookie => cases kind' <;> rfl

theorem mapOf_delParam (req : HttpRequestMaps) (kind' : Kind) (key : List UInt8) :
    (req.delParam key).mapOf kind' =
      if kind' = .header then OrderedMap.erase caseInsensitiveLess key (req.mapOf kind')
      else req.mapOf kind' := by
  cases kind' <;> rfl

theorem holds_set {s : HttpRequestMaps × Contents} (h : Holds s) (kind : Kind) (key : Key)
    (val : List UInt8) : Holds (s.1.call (.set kind key val), s.2.call (.set kind key val)) := by
  intro kind' key'
  simp only [call, Contents.call, mapOf_set]
  by_cases hkind : kind' = kind
  · rw [if_pos hkind]
    by_cases hkey : key'.folded = key.folded
    · rw [if_pos ⟨hkind, hkey⟩]
      exact OrderedMap.find_insert strictWeak_caseInsensitiveLess ((Key.same_iff _ _).mpr hkey.symm)
    · rw [if_neg fun hboth => hkey hboth.2,
        OrderedMap.find_insert_other strictWeak_caseInsensitiveLess (Key.not_same (Ne.symm hkey))]
      exact h kind' key'
  · rw [if_neg hkind, if_neg fun hboth => hkind hboth.1]
    exact h kind' key'

theorem holds_del {s : HttpRequestMaps × Contents} (h : Holds s) {kind : Kind}
    (hparam : kind ≠ .param) (key : Key) :
    Holds (s.1.call (.del kind key), s.2.call (.del kind key)) := by
  intro kind' key'
  simp only [call, Contents.call, mapOf_del _ hparam]
  by_cases hkind : kind' = kind
  · rw [if_pos hkind]
    by_cases hkey : key'.folded = key.folded
    · rw [if_pos ⟨hkind, hkey⟩]
      exact OrderedMap.find_erase strictWeak_caseInsensitiveLess ((Key.same_iff _ _).mpr hkey.symm)
    · rw [if_neg fun hboth => hkey hboth.2,
        OrderedMap.find_erase_other strictWeak_caseInsensitiveLess (Key.not_same (Ne.symm hkey))]
      exact h kind' key'
  · rw [if_neg hkind, if_neg fun hboth => hkind hboth.1]
    exact h kind' key'

/-- A parameter is deleted rightly if and only if neither map has the key: what the parameters have
stays, and what the headers have goes. -/
theorem holds_delParam {s : HttpRequestMaps × Contents} (h : Holds s) (key : Key) :
    Holds (s.1.call (.del .param key), s.2.call (.del .param key)) ↔
      s.2 .param key.folded = none ∧ s.2 .header key.folded = none := by
  constructor
  · intro hafter
    have hparam := hafter .param key
    have hheader := hafter .header key
    simp only [call, del, Contents.call, mapOf_delParam, true_and, if_true] at hparam hheader
    have hgone := OrderedMap.find_erase (m := s.1.mapOf .header) strictWeak_caseInsensitiveLess
      ((Key.same_iff key key).mpr rfl)
    rw [hgone] at hheader
    exact ⟨(h .param key).symm.trans hparam, hheader.symm⟩
  · rintro ⟨hparam, hheader⟩ kind key'
    simp only [call, del, Contents.call, mapOf_delParam]
    have hbefore := h kind key'
    by_cases hkey : key'.folded = key.folded
    · cases kind with
      | header =>
        rw [if_pos rfl, if_neg (by simp), hkey, hheader]
        exact OrderedMap.find_erase strictWeak_caseInsensitiveLess ((Key.same_iff _ _).mpr hkey.symm)
      | param =>
        rw [if_neg (by simp), if_pos ⟨rfl, hkey⟩, hbefore, hkey, hparam]
      | cookie =>
        rw [if_neg (by simp), if_neg (by simp)]
        exact hbefore
    · have hother : ¬(kind = .param ∧ key'.folded = key.folded) := fun hboth => hkey hboth.2
      rw [if_neg hother]
      split
      · rw [OrderedMap.find_erase_other strictWeak_caseInsensitiveLess
          (Key.not_same (Ne.symm hkey))]
        exact hbefore
      · exact hbefore

theorem hasParam_iff {s : HttpRequestMaps × Contents} (h : Holds s) (key : Key) :
    (s.1.hasParam key.text []).1 = false ∧ (s.1.hasHeader key.text []).1 = false ↔
      s.2 .param key.folded = none ∧ s.2 .header key.folded = none := by
  have hhas (kind : Kind) (v : List UInt8) :
      (has (s.1.mapOf kind) key.text v).1 = false ↔ s.2 kind key.folded = none := by
    rw [has, h kind key]
    cases s.2 kind key.folded <;> simp
  exact and_congr (hhas .param []) (hhas .header [])

theorem step_holds {s s' : HttpRequestMaps × Contents} {c : Call} (h : Holds s)
    (hstep : Step s c s') : Holds s' ↔ DeletesNoParam s c := by
  rw [hstep]
  cases c with
  | set kind key val => exact ⟨fun _ => trivial, fun _ => holds_set h kind key val⟩
  | del kind key =>
    cases kind with
    | param => exact (holds_delParam h key).trans (hasParam_iff h key).symm
    | header => exact ⟨fun _ => trivial, fun _ => holds_del h (by simp) key⟩
    | cookie => exact ⟨fun _ => trivial, fun _ => holds_del h (by simp) key⟩
  | get kind key defaultValue => exact ⟨fun _ => trivial, fun _ => h⟩
  | has kind key val => exact ⟨fun _ => trivial, fun _ => h⟩

/-- Along every run of calls the three maps of a request are what they should be, as long as, and
only as long as, no parameter is deleted under a key that the parameters or the headers have. -/
theorem maps_right_iff {req : HttpRequestMaps} {t : List (Call × (HttpRequestMaps × Contents))}
    (run : Run Step (req, req.contents) t) :
    Always Right (req, req.contents) t ↔ Meets DeletesNoParam (req, req.contents) t := by
  have hright : Right = Holds := by
    funext s
    exact propext (right_iff s)
  rw [hright]
  exact always_iff_meets (fun _ => True) Holds DeletesNoParam (fun _ _ _ _ _ _ => trivial)
    (fun _ _ _ _ h hstep => step_holds h hstep) run trivial (holds_contents req)

/-! ## A run -/

def fresh : HttpRequestMaps := { HttpRequest.init with params := [], cookies := [] }

def keyA : Key := ⟨chars "a", by decide⟩

/-- The parameter `a` is set and deleted, the header `a` set in between. -/
def calls : List Call :=
  [.set .param keyA (chars "1"), .set .header keyA (chars "2"), .del .param keyA]

/-- The states a list of calls leads to. -/
def states (s : HttpRequestMaps × Contents) : List Call → List (Call × (HttpRequestMaps × Contents))
  | [] => []
  | c :: cs => (c, (s.1.call c, s.2.call c)) :: states (s.1.call c, s.2.call c) cs

theorem run_states (s : HttpRequestMaps × Contents) (cs : List Call) : Run Step s (states s cs) := by
  induction cs generalizing s with
  | nil => exact .nil s
  | cons c cs ih => exact .cons rfl (ih _)

theorem maps_right_iff_calls :
    Always Right (fresh, fresh.contents) (states (fresh, fresh.contents) calls) ↔
      Meets DeletesNoParam (fresh, fresh.contents) (states (fresh, fresh.contents) calls) :=
  maps_right_iff (run_states _ calls)

/-- The parameter is still there, and the header is gone. -/
theorem deleted_param_stays :
    ¬Always Right (fresh, fresh.contents) (states (fresh, fresh.contents) calls) ∧
      (last (fresh, fresh.contents) (states (fresh, fresh.contents) calls)).1.getParam
        (chars "a") [] = chars "1" ∧
      (last (fresh, fresh.contents) (states (fresh, fresh.contents) calls)).1.hasHeader
        (chars "a") [] = (false, []) := by
  refine ⟨?_, by decide, by decide⟩
  intro h
  have hlast := h.last .param keyA []
  revert hlast
  decide

end HttpRequestMaps

end CxkFramework
