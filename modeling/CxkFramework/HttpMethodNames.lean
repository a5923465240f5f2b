import CxkFramework.HttpRequestText

/-!
# Recognising the method

`StringToHttpMethod` compares a string with the names, `CharsTohttpMethod` looks for a name at the
start of what is left of the buffer. A token that only begins with a name is taken for this method.
-/

namespace CxkFramework

open Scanner HttpParser

/-! ## Two lookups -/

/-- `strcmp(a, b) == 0`. -/
def strcmp (a b : List UInt8) : Bool := a.takeWhile (· != 0) == b.takeWhile (· != 0)

namespace HttpMethod

/-- `StringToHttpMethod`. -/
def ofString (m : List UInt8) : HttpMethod :=
  match names.find? fun n => strcmp (chars n.2) m with
  | some n => n.1
  | none => .invalidMethod

/-- A token of the grammar: capital letters and digits, twenty at most. -/
def IsToken (t : List UInt8) : Prop :=
  1 ≤ t.length ∧ t.length ≤ 20 ∧ ∀ c ∈ t, 48 ≤ c ∧ c ≤ 57 ∨ 65 ≤ c ∧ c ≤ 90

theorem names_no_zero : ∀ n ∈ names, 0 ∉ chars n.2 :=
  fun n hn hmem => absurd (names_capital n hn 0 hmem) (by decide)

theorem names_valid : ∀ n ∈ names, n.1 ≠ .invalidMethod := by decide

/-- No name starts with another one. -/
theorem names_apart : ∀ n ∈ names, ∀ n' ∈ names, chars n.2 <+: chars n'.2 → n = n' := by
  decide

theorem length_chars (s : String) : (chars s).length = s.length := by
  rw [chars, List.length_map, String.length_toList]

theorem strncmp_iff_prefix {a b : List UInt8} (ha : 0 ∉ a) :
    strncmp a b a.length = true ↔ a <+: b := by
  induction a generalizing b with
  | nil => simp [strncmp]
  | cons c a ih =>
    simp only [List.mem_cons, not_or] at ha
    have hc : (c == 0) = false := beq_false_of_ne (Ne.symm ha.1)
    cases b with
    | nil => simp [strncmp, hc]
    | cons d b => simp [strncmp, hc, ih ha.2, List.cons_prefix_cons]

theorem strcmp_iff {a b : List UInt8} (ha : 0 ∉ a) (hb : 0 ∉ b) : strcmp a b = true ↔ a = b := by
  rw [strcmp, takeWhile_no_zero ha, takeWhile_no_zero hb, beq_iff_eq]

theorem ofChars_cases (text : List UInt8) :
    (∃ n ∈ names, ofChars text = n.1 ∧ chars n.2 <+: text) ∨
      ofChars text = .invalidMethod ∧ ∀ n ∈ names, ¬chars n.2 <+: text := by
  cases hfind : names.find? fun n => strncmp (chars n.2) text n.2.length with
  | some n =>
    have hmem := List.mem_of_find?_eq_some hfind
    have hfound := List.find?_some hfind
    rw [← length_chars, strncmp_iff_prefix (names_no_zero n hmem)] at hfound
    exact .inl ⟨n, hmem, by rw [ofChars, hfind], hfound⟩
  | none =>
    refine .inr ⟨by rw [ofChars, hfind], ?_⟩
    intro n hn hprefix
    rw [← strncmp_iff_prefix (names_no_zero n hn), length_chars] at hprefix
    exact List.find?_eq_none.mp hfind n hn hprefix

theorem ofString_cases {t : List UInt8} (ht : 0 ∉ t) :
    (∃ n ∈ names, ofString t = n.1 ∧ chars n.2 = t) ∨
      ofString t = .invalidMethod ∧ ∀ n ∈ names, chars n.2 ≠ t := by
  cases hfind : names.find? fun n => strcmp (chars n.2) t with
  | some n =>
    have hmem := List.mem_of_find?_eq_some hfind
    have hfound := List.find?_some hfind
    rw [strcmp_iff (names_no_zero n hmem) ht] at hfound
    exact .inl ⟨n, hmem, by rw [ofString, hfind], hfound⟩
  | none =>
    refine .inr ⟨by rw [ofString, hfind], ?_⟩
    intro n hn heq
    rw [← strcmp_iff (names_no_zero n hn) ht] at heq
    exact List.find?_eq_none.mp hfind n hn heq

theorem IsToken.no_zero {t : List UInt8} (h : IsToken t) : 0 ∉ t := by
  intro hmem
  have hzero := h.2.2 0 hmem
  revert hzero
  decide

/-- The two lookups agree on a name whatever follows it, and on any other token unless a name is
found with what follows. -/
theorem ofChars_eq_ofString {t : List UInt8} (ht : 0 ∉ t) (text : List UInt8) :
    ofChars (t ++ text) = ofString t ↔
      ofString t ≠ .invalidMethod ∨ ∀ n ∈ names, ¬chars n.2 <+: t ++ text := by
  obtain ⟨n, hn, hstring, rfl⟩ | ⟨hstring, hno⟩ := ofString_cases ht
  · have hvalid := names_valid n hn
    obtain ⟨n', hn', hchars, hprefix⟩ | ⟨-, hnone⟩ := ofChars_cases (chars n.2 ++ text)
    · have hsame : n = n' := by
        obtain h | h := List.prefix_or_prefix_of_prefix (List.prefix_append _ text) hprefix
        · exact names_apart n hn n' hn' h
        · exact (names_apart n' hn' n hn h).symm
      rw [hchars, hstring, hsame]
      simp [names_valid n' hn']
    · exact absurd (List.prefix_append _ text) (hnone n hn)
  · rw [hstring]
    obtain ⟨n, hn, hchars, hprefix⟩ | ⟨hchars, hnone⟩ := ofChars_cases (t ++ text)
    · rw [hchars]
      constructor
      · intro h
        exact absurd h (names_valid n hn)
      · rintro (h | h)
        · exact absurd rfl h
        · exact absurd hprefix (h n hn)
    · exact ⟨fun _ => .inr hnone, fun _ => hchars⟩

theorem prefix_space {a : List UInt8} (ha : 32 ∉ a) (t rest : List UInt8) :
    a <+: t ++ 32 :: rest ↔ a <+: t := by
  induction a generalizing t with
  | nil => simp
  | cons c a ih =>
    simp only [List.mem_cons, not_or] at ha
    cases t with
    | nil => simp [List.cons_prefix_cons, Ne.symm ha.1]
    | cons e t => simp [List.cons_prefix_cons, ih ha.2]

end HttpMethod

/-! ## The parser -/

namespace HttpRequestParser

/-- The state behind so many characters of the method. -/
def methodState (k : Nat) : Nat := if k = 0 then 1 else if k = 1 then 2 else 173 + k

def inMethod (cs : Nat) : Bool := cs == 1 || cs == 2 || (decide (175 ≤ cs) && decide (cs ≤ 193))

/-- No transition comes back to the method or looks for it once it is left. -/
def edgeLeaves (cs : Nat) (e : Edge) : Bool :=
  inMethod cs || !inMethod e.next && !e.actions.any (· == .requestMethod)

theorem table_leaves : everyEdge edgeLeaves 0 table = true := by set_option maxRecDepth 1000 in decide

/-- Behind its first character a method ends at a space or goes on. -/
theorem row_method {k : Nat} (h1 : 1 ≤ k) (hk : k < 20) :
    table.getD (methodState k) [] = [tr 32 32 3 [.requestMethod], st 48 57 (methodState (k + 1)),
      st 65 90 (methodState (k + 1))] := by
  have hall : ∀ k : Fin 20, 1 ≤ k.val → table.getD (methodState k) [] =
      [tr 32 32 3 [.requestMethod], st 48 57 (methodState (k + 1)),
        st 65 90 (methodState (k + 1))] := by
    decide
  exact hall ⟨k, hk⟩ h1

theorem next_token_char (uriRelaxed : Bool) {k : Nat} (hk : k < 20) {c : UInt8}
    (hc : 48 ≤ c ∧ c ≤ 57 ∨ 65 ≤ c ∧ c ≤ 90) :
    (machine uriRelaxed).next (methodState k) c =
      some (methodState (k + 1), if k = 0 then [.mark] else []) := by
  simp only [UInt8.le_iff_toNat_le, UInt8.reduceToNat] at hc
  show next uriRelaxed (methodState k) c = _
  rw [next]
  by_cases h0 : k = 0
  · subst h0
    have hrow : table.getD (methodState 0) [] =
        [tr 48 57 2 [.mark], tr 60 60 194 [.mark], tr 64 64 198 [.mark], tr 65 90 2 [.mark]] := rfl
    rw [hrow, if_pos rfl]
    obtain ⟨hlow, hhigh⟩ | ⟨hlow, hhigh⟩ := hc
    · simp [tr, hlow, hhigh, methodState]
    · have hdigit : ¬c.toNat ≤ 57 := by omega
      have hsixty : ¬c.toNat ≤ 60 := by omega
      have hat : ¬c.toNat ≤ 64 := by omega
      simp [tr, hlow, hhigh, hdigit, hsixty, hat, methodState]
  · have hspace : ¬c.toNat ≤ 32 := by omega
    rw [row_method (Nat.pos_of_ne_zero h0) hk, if_neg h0]
    obtain ⟨hlow, hhigh⟩ | ⟨hlow, hhigh⟩ := hc
    · simp [tr, st, hlow, hhigh, hspace]
    · have hdigit : ¬c.toNat ≤ 57 := by omega
      simp [tr, st, hlow, hhigh, hspace, hdigit]

theorem next_token_space (uriRelaxed : Bool) {k : Nat} (h1 : 1 ≤ k) (hk : k ≤ 20) :
    (machine uriRelaxed).next (methodState k) 32 = some (3, [.requestMethod]) := by
  have hall : ∀ (r : Bool) (k : Fin 21), 1 ≤ k.val →
      (machine r).next (methodState k) 32 = some (3, [.requestMethod]) := by
    decide
  exact hall uriRelaxed ⟨k, by omega⟩ h1

/-- The machine over the characters of a token behind the first one. -/
theorem exec_token {uriRelaxed : Bool} {buffer : List UInt8} (t rest : List UInt8) {k : Nat}
    (hk : 1 ≤ k) (hlength : k + t.length ≤ 20)
    (ht : ∀ c ∈ t, 48 ≤ c ∧ c ≤ 57 ∨ 65 ≤ c ∧ c ≤ 90) (d : HttpRequestParser) :
    (machine uriRelaxed).exec (perform buffer) (methodState k) k (t ++ rest) d =
      (machine uriRelaxed).exec (perform buffer) (methodState (k + t.length)) (k + t.length)
        rest d := by
  induction t generalizing k with
  | nil => rfl
  | cons c t ih =>
    simp only [List.length_cons] at hlength
    simp only [List.mem_cons, forall_eq_or_imp] at ht
    have hnext := next_token_char uriRelaxed (show k < 20 by omega) ht.1
    rw [if_neg (by omega)] at hnext
    rw [List.cons_append, exec_step hnext rfl rfl, ih (by omega) (by omega) ht.2, List.length_cons,
      Nat.add_right_comm, Nat.add_assoc]

/-- The machine over a token and its space: the parser looks for the method where the token
starts. -/
theorem exec_method {uriRelaxed : Bool} {t : List UInt8} (ht : HttpMethod.IsToken t)
    {buffer : List UInt8} (rest : List UInt8) (d : HttpRequestParser) :
    (machine uriRelaxed).exec (perform buffer) start 0 (t ++ 32 :: rest) d =
      (machine uriRelaxed).exec (perform buffer) 3 (t.length + 1) rest
        ((setMark 0 d).onRequestMethod buffer) := by
  obtain ⟨hone, htwenty, hchars⟩ := ht
  cases t with
  | nil => simp at hone
  | cons c t =>
    simp only [List.length_cons] at htwenty
    simp only [List.mem_cons, forall_eq_or_imp] at hchars
    have hfirst := next_token_char uriRelaxed (show 0 < 20 by omega) hchars.1
    have hspace := next_token_space uriRelaxed (show 1 ≤ 1 + t.length by omega) (by omega)
    rw [if_pos rfl] at hfirst
    have hstart : start = methodState 0 := rfl
    rw [List.cons_append, hstart, exec_step hfirst rfl rfl,
      exec_token t (32 :: rest) (by omega) (by omega) hchars.2, exec_step hspace rfl rfl,
      List.length_cons, Nat.add_comm 1 t.length]
    rfl

theorem method_onRequestHttpField {d d' : HttpRequestParser} {field value : List UInt8}
    {flen vlen : Nat} (h : d.onRequestHttpField field flen value vlen = .ok d') :
    d'.data.method = d.data.method := by
  rw [onRequestHttpField] at h
  split at h
  · cases h
    rfl
  · cases hkey : makeString field flen with
    | error e => simp [hkey, bind, Except.bind] at h
    | ok key =>
      cases hval : makeString value vlen with
      | error e => simp [hkey, hval, bind, Except.bind] at h
      | ok val =>
        rw [hkey, hval] at h
        cases h
        rfl

theorem method_perform {buffer : List UInt8} {p : Nat} {a : Action} {d d' : HttpRequestParser}
    (ha : a ≠ .requestMethod) (h : perform buffer p a d = .ok d') :
    d'.data.method = d.data.method := by
  have htext (set : HttpRequest → List UInt8 → HttpRequest)
      (hset : ∀ req v, (set req v).method = req.method) {text : List UInt8} {n : Nat}
      (h : d.onRequestText set text n = .ok d') : d'.data.method = d.data.method := by
    rw [onRequestText] at h
    cases hv : makeString text n with
    | error e => simp [hv, bind, Except.bind] at h
    | ok v =>
      rw [hv] at h
      cases h
      exact hset d.data v
  cases a with
  | requestMethod => exact absurd rfl ha
  | fragment => exact htext (fun req v => { req with fragment := v }) (fun _ _ => rfl) h
  | queryString => exact htext (fun req v => { req with query := v }) (fun _ _ => rfl) h
  | requestPath => exact htext (fun req v => { req with path := v }) (fun _ _ => rfl) h
  | httpVersion =>
    cases h
    rw [onRequestVersion]
    split
    · rfl
    · split <;> rfl
  | writeValue => exact method_onRequestHttpField h
  | _ =>
    cases h
    rfl

theorem next_leaves {uriRelaxed : Bool} {cs cs' : Nat} {b : UInt8} {as : List Action}
    (hcs : inMethod cs = false) (hnext : (machine uriRelaxed).next cs b = some (cs', as)) :
    inMethod cs' = false ∧ ∀ a ∈ as, a ≠ .requestMethod := by
  obtain ⟨e, rfl, rfl, _, _, hedge⟩ :=
    HttpParser.next_of_table table_leaves hnext
  simp only [edgeLeaves, hcs, Bool.false_or, Bool.and_eq_true, Bool.not_eq_true'] at hedge
  refine ⟨hedge.1, ?_⟩
  rintro a ha rfl
  have hno := List.any_eq_false.mp hedge.2 _ ha
  simp at hno

/-- Behind the method nothing changes it. -/
theorem method_kept {uriRelaxed : Bool} {buffer bs : List UInt8} {cs p n : Nat}
    {d d' : HttpRequestParser} {v : Verdict Nat} (hcs : inMethod cs = false)
    (h : (machine uriRelaxed).exec (perform buffer) cs p bs d = .ok (v, n, d')) :
    d'.data.method = d.data.method := by
  apply Machine.exec_invariant_in (S := fun q => inMethod q = false)
    (P := fun e => e.data.method = d.data.method) _ hcs h rfl
  intro q b q' as hq hnext
  obtain ⟨hq', has⟩ := next_leaves hq hnext
  exact ⟨hq', fun a ha p d₁ d₂ hstep hd => (method_perform (has a ha) hstep).trans hd⟩

/-- What should become of the method when the token is `t`: the one of this name, and error 1000
for any other token. -/
def Recognised (t : List UInt8) (d d' : HttpRequestParser) : Prop :=
  if HttpMethod.ofString t = .invalidMethod then
    d'.error = 1000 ∧ d'.data.method = d.data.method
  else d'.error = d.error ∧ d'.data.method = HttpMethod.ofString t

theorem recognised_iff {t : List UInt8} (ht : 0 ∉ t) (rest : List UInt8) (d : HttpRequestParser)
    (herror : d.error = 0) :
    Recognised t d ((setMark 0 d).onRequestMethod (t ++ 32 :: rest)) ↔
      HttpMethod.ofString t ≠ .invalidMethod ∨ ∀ n ∈ HttpMethod.names, ¬chars n.2 <+: t := by
  have hagree := HttpMethod.ofChars_eq_ofString ht (32 :: rest)
  have hspace : (∀ n ∈ HttpMethod.names, ¬chars n.2 <+: t ++ 32 :: rest) ↔
      ∀ n ∈ HttpMethod.names, ¬chars n.2 <+: t := by
    constructor
    · intro h n hn hprefix
      exact h n hn ((HttpMethod.prefix_space (names_no_space n hn) t rest).mpr hprefix)
    · intro h n hn hprefix
      exact h n hn ((HttpMethod.prefix_space (names_no_space n hn) t rest).mp hprefix)
  rw [hspace] at hagree
  rw [← hagree, Recognised, onRequestMethod]
  by_cases hstring : HttpMethod.ofString t = .invalidMethod
  · rw [if_pos hstring, hstring]
    split
    · next hchars => simp [hchars, setMark, setError]
    · next hchars => simp [hchars, setMark, setData, herror]
  · rw [if_neg hstring]
    split
    · next hchars =>
      rw [hchars]
      simp [setMark, setError, herror, Ne.symm hstring]
    · next hchars => simp [setMark, setData]

theorem execute_of_error {uriRelaxed : Bool} {queryStart : Nat} {buffer : List UInt8}
    {e : HttpFault} (hne : buffer ≠ [])
    (h : (machine uriRelaxed).exec (perform buffer) start 0 buffer (init uriRelaxed queryStart) =
      .error e) : (init uriRelaxed queryStart).execute buffer = .error e := by
  have hlength : buffer.length ≠ 0 := by simpa using hne
  have hreset : (init uriRelaxed queryStart).resetOffsets = init uriRelaxed queryStart := rfl
  have hmode : (init uriRelaxed queryStart).uriRelaxed = uriRelaxed := rfl
  have hstart : (init uriRelaxed queryStart).cs = start := rfl
  rw [execute, if_neg hlength, hreset, hmode, hstart, h]

/-- The method is recognised, in whatever request line the token starts, if and only if the token is
a name or does not begin with one; nothing behind the token changes what was made of it. The two
lookups agree, whatever follows the token, if and only if the token is a name or no name is found
with what follows. -/
theorem method_recognised {t : List UInt8} (ht : HttpMethod.IsToken t) (rest text : List UInt8)
    (uriRelaxed : Bool) (queryStart : Nat) :
    (∃ d, (machine uriRelaxed).exec (perform (t ++ 32 :: rest)) start 0 (t ++ [32])
          (init uriRelaxed queryStart) = .ok (.running 3, t.length + 1, d) ∧
        (Recognised t (init uriRelaxed queryStart) d ↔
          HttpMethod.ofString t ≠ .invalidMethod ∨ ∀ n ∈ HttpMethod.names, ¬chars n.2 <+: t) ∧
        ∀ final n, (init uriRelaxed queryStart).execute (t ++ 32 :: rest) = .ok (final, n) →
          final.data.method = d.data.method ∧ (d.error ≠ 0 → final.error ≠ 0)) ∧
      (HttpMethod.ofChars (t ++ text) = HttpMethod.ofString t ↔
        HttpMethod.ofString t ≠ .invalidMethod ∨
          ∀ n ∈ HttpMethod.names, ¬chars n.2 <+: t ++ text) := by
  have hrun : (machine uriRelaxed).exec (perform (t ++ 32 :: rest)) start 0 (t ++ [32])
      (init uriRelaxed queryStart) = .ok (.running 3, t.length + 1,
        (setMark 0 (init uriRelaxed queryStart)).onRequestMethod (t ++ 32 :: rest)) := by
    rw [exec_method ht [], Machine.exec]
  refine ⟨⟨_, hrun, recognised_iff ht.no_zero rest _ rfl, ?_⟩,
    HttpMethod.ofChars_eq_ofString ht.no_zero text⟩
  intro final n hfinal
  have hne : t ++ 32 :: rest ≠ [] := by simp
  cases hexec : (machine uriRelaxed).exec (perform (t ++ 32 :: rest)) start 0 (t ++ 32 :: rest)
      (init uriRelaxed queryStart) with
  | error e =>
    rw [execute_of_error hne hexec] at hfinal
    cases hfinal
  | ok result =>
    obtain ⟨v, m, d'⟩ := result
    have hexecute : (init uriRelaxed queryStart).execute (t ++ 32 :: rest) =
        .ok ({ d' with cs := stateOf v }, m) := execute_of_exec hne (by simp [init, start]) hexec
    rw [hexecute] at hfinal
    cases hfinal
    rw [exec_method ht rest] at hexec
    have hmethod := method_kept rfl hexec
    exact ⟨hmethod, (keeps_exec hexec).1⟩

theorem method_recognised_get :
    ∃ d, (machine false).exec (perform (chars "GET /")) start 0 (chars "GET ") (init false 0) =
        .ok (.running 3, 4, d) ∧
      (Recognised (chars "GET") (init false 0) d ↔
        HttpMethod.ofString (chars "GET") ≠ .invalidMethod ∨
          ∀ n ∈ HttpMethod.names, ¬chars n.2 <+: chars "GET") := by
  have htoken : HttpMethod.IsToken (chars "GET") := by
    exact ⟨by decide, by decide, List.all_iff_forall_prop.mp (by decide)⟩
  obtain ⟨⟨d, hrun, hiff, -⟩, -⟩ := method_recognised htoken (chars "/") [] false 0
  exact ⟨d, hrun, hiff⟩

/-- `POSTX` is no method, and the request is one with `POST`. -/
theorem postx_recognised :
    HttpMethod.IsToken (chars "POSTX") ∧ HttpMethod.ofString (chars "POSTX") = .invalidMethod ∧
      ((init false 0).execute (chars "POSTX / HTTP/1.1\r\n\r\n")).toOption.map
        (fun r => (r.1.error, r.1.data.method, r.1.isFinished)) = some (0, .post, 1) ∧
      HttpMethod.ofChars (chars "POSTX / HTTP/1.1\r\n\r\n") ≠
        HttpMethod.ofString (chars "POSTX") := by
  exact ⟨⟨by decide, by decide, List.all_iff_forall_prop.mp (by decide)⟩, by decide, by decide,
    by decide⟩

end HttpRequestParser

end CxkFramework
