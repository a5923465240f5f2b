import Mathlib.Data.List.Nodup
import Mathlib.Logic.Function.Basic

/-!
# Recursive removal

`FSUtil::Rm` on a tree of files of every type, with any failures and any order of `readdir`. A path is
the list of its names, the last one first. Whether a file is a directory is asked of one bit of
`st_mode`, which sockets and block devices have too.
-/

namespace CxkFramework.FileRemoval

abbrev Path := List String

inductive FileType where
  | fifo
  | char
  | dir
  | block
  | reg
  | link
  | socket
  deriving DecidableEq, Repr

/-- The file type in `st_mode`. -/
def FileType.bits : FileType → Nat
  | .fifo => 0o010000
  | .char => 0o020000
  | .dir => 0o040000
  | .block => 0o060000
  | .reg => 0o100000
  | .link => 0o120000
  | .socket => 0o140000

def S_IFDIR : Nat := 0o040000

structure Inode where
  type : FileType
  perm : Fin 0o10000
  deriving DecidableEq, Repr

/-- `st_mode`. -/
def Inode.mode (i : Inode) : Nat := i.type.bits ||| i.perm

/-- A finite tree: what is at a path, and all paths there are. Whatever has a parent has a directory
for it, and the names are not those that `readdir` adds. -/
structure FileTree where
  inode : Path → Option Inode
  paths : List Path
  mem_paths : ∀ p, p ∈ paths ↔ inode p ≠ none
  nodup : paths.Nodup
  parent : ∀ name p, inode (name :: p) ≠ none → ∃ i, inode p = some i ∧ i.type = .dir
  names : ∀ name p, inode (name :: p) ≠ none → name ≠ "." ∧ name ≠ ".."

namespace FileTree

/-- The names in a directory. -/
def children (t : FileTree) (p : Path) : List String :=
  t.paths.filterMap fun
    | [] => none
    | name :: q => if q = p then some name else none

theorem mem_children {t : FileTree} {p : Path} {name : String} :
    name ∈ t.children p ↔ t.inode (name :: p) ≠ none := by
  rw [← t.mem_paths, children, List.mem_filterMap]
  constructor
  · rintro ⟨q, hq, hname⟩
    cases q with
    | nil => cases hname
    | cons n q =>
      simp only [Option.ite_none_right_eq_some, Option.some.injEq] at hname
      obtain ⟨rfl, rfl⟩ := hname
      exact hq
  · intro h
    exact ⟨name :: p, h, if_pos rfl⟩

/-- The tree without a path that nothing lies below. -/
def remove (t : FileTree) (p : Path) (h : ∀ name, t.inode (name :: p) = none) : FileTree where
  inode := Function.update t.inode p none
  paths := t.paths.erase p
  mem_paths q := by
    rw [t.nodup.mem_erase_iff, t.mem_paths]
    by_cases hq : q = p
    · simp [hq]
    · simp [hq]
  nodup := t.nodup.erase p
  parent name q hq := by
    by_cases heq : name :: q = p
    · simp [heq] at hq
    · rw [Function.update_of_ne heq] at hq
      have hne : q ≠ p := by
        rintro rfl
        exact hq (h name)
      rw [Function.update_of_ne hne]
      exact t.parent name q hq
  names name q hq := by
    by_cases heq : name :: q = p
    · simp [heq] at hq
    · rw [Function.update_of_ne heq] at hq
      exact t.names name q hq

theorem not_dir_childless (t : FileTree) {p : Path} {i : Inode} (hi : t.inode p = some i)
    (hdir : i.type ≠ .dir) (name : String) : t.inode (name :: p) = none := by
  by_contra hne
  obtain ⟨j, hj, htype⟩ := t.parent name p hne
  rw [hi] at hj
  cases hj
  exact hdir htype

theorem children_nil (t : FileTree) {p : Path} (h : t.children p = []) (name : String) :
    t.inode (name :: p) = none := by
  by_contra hne
  have hmem := mem_children.mpr hne
  rw [h] at hmem
  cases hmem

/-- `unlink`: of anything but a directory. -/
def unlink (t : FileTree) (p : Path) : Option FileTree :=
  match h : t.inode p with
  | none => none
  | some i => if hdir : i.type = .dir then none else some (t.remove p (t.not_dir_childless h hdir))

/-- `rmdir`: of an empty directory. -/
def rmdir (t : FileTree) (p : Path) : Option FileTree :=
  match t.inode p with
  | none => none
  | some i =>
    if i.type = .dir then
      if h : t.children p = [] then some (t.remove p (t.children_nil h)) else none
    else none

end FileTree

/-- Which of the calls of `unlink`, `rmdir` and `opendir` fail, and in which order a directory is
read. -/
structure System where
  fails : Nat → Bool
  order : Nat → List String → List String
  perm : ∀ i names, (order i names).Perm names

structure World where
  tree : FileTree
  calls : Nat

namespace World

/-- `lstat`, with the mode. -/
def lstat (w : World) (path : Path) : Option Nat := (w.tree.inode path).map Inode.mode

def count (w : World) : World := { w with calls := w.calls + 1 }

/-- `unlink(path) == 0`. -/
def unlink (sys : System) (w : World) (path : Path) : Bool × World :=
  if sys.fails w.calls then (false, w.count)
  else
    match w.tree.unlink path with
    | none => (false, w.count)
    | some tree => (true, { w.count with tree })

/-- `rmdir(path) == 0`. -/
def rmdir (sys : System) (w : World) (path : Path) : Bool × World :=
  if sys.fails w.calls then (false, w.count)
  else
    match w.tree.rmdir path with
    | none => (false, w.count)
    | some tree => (true, { w.count with tree })

/-- `opendir`, with all that `readdir` is going to return. -/
def opendir (sys : System) (w : World) (path : Path) : Option (List String) × World :=
  if sys.fails w.calls then (none, w.count)
  else
    match w.tree.inode path with
    | none => (none, w.count)
    | some i =>
      if i.type = .dir then (some (sys.order w.calls ("." :: ".." :: w.tree.children path)), w.count)
      else (none, w.count)

end World

/-- `FSUtil::Unlink`. -/
def Unlink (sys : System) (filename : Path) (exist : Bool) (w : World) : Bool × World :=
  if !exist && (w.lstat filename).isNone then (true, w) else w.unlink sys filename

/-- The loop over the names; each result replaces the one before it. -/
def rmLoop (rm : Path → World → Option (Bool × World)) (path : Path) :
    List String → Bool → World → Option (Bool × World)
  | [], ret, w => some (ret, w)
  | name :: names, ret, w =>
    if name = "." ∨ name = ".." then rmLoop rm path names ret w
    else
      match rm (name :: path) w with
      | none => none
      | some (ret, w) => rmLoop rm path names ret w

/-- `FSUtil::Rm`; no result when the recursion is deeper than given. -/
def Rm (sys : System) : Nat → Path → World → Option (Bool × World)
  | 0, _, _ => none
  | depth + 1, path, w =>
    match w.lstat path with
    | none => some (true, w)
    | some mode =>
      if mode &&& S_IFDIR = 0 then some (Unlink sys path false w)
      else
        match w.opendir sys path with
        | (none, w) => some (false, w)
        | (some names, w) =>
          match rmLoop (Rm sys depth) path names true w with
          | none => none
          | some (ret, w) =>
            match w.rmdir sys path with
            | (true, w) => some (ret, w)
            | (false, w) => some (false, w)

/-! ## What the calls do -/

/-- Neither a directory nor anything that `unlink` is called for. -/
def Inode.Mistaken (i : Inode) : Prop := i.type = .socket ∨ i.type = .block

instance (i : Inode) : Decidable i.Mistaken := inferInstanceAs (Decidable (_ ∨ _))

/-- The permissions are below the bit. -/
theorem mode_isDir (i : Inode) : i.mode &&& S_IFDIR = i.type.bits &&& S_IFDIR := by
  have hperm : (i.perm : Nat) &&& S_IFDIR = 0 := by
    have hbit : (i.perm : Nat).testBit 14 = false :=
      Nat.testBit_lt_two_pow (Nat.lt_trans i.perm.isLt (by decide))
    apply Nat.eq_of_testBit_eq
    intro k
    rw [Nat.testBit_and, show S_IFDIR = 2 ^ 14 from rfl, Nat.testBit_two_pow, Nat.zero_testBit]
    by_cases hk : 14 = k
    · rw [← hk, hbit, Bool.false_and]
    · rw [decide_eq_false hk, Bool.and_false]
  rw [Inode.mode, Nat.and_or_distrib_right, hperm, Nat.or_zero]

theorem mode_eq_zero_iff (i : Inode) :
    i.mode &&& S_IFDIR = 0 ↔ i.type ≠ .dir ∧ ¬i.Mistaken := by
  rw [mode_isDir, Inode.Mistaken]
  cases i.type <;> decide

section Calls

variable {t t' : FileTree} {p q : Path} {i : Inode}

theorem unlink_eq (h : t.unlink p = some t') :
    t'.inode = Function.update t.inode p none ∧ ∃ i, t.inode p = some i ∧ i.type ≠ .dir := by
  rw [FileTree.unlink] at h
  split at h
  · cases h
  · next i hi =>
    split at h
    · cases h
    · next hdir =>
      cases h
      exact ⟨rfl, i, hi, hdir⟩

theorem unlink_of_not_dir (hi : t.inode p = some i) (hdir : i.type ≠ .dir) :
    ∃ t', t.unlink p = some t' := by
  rw [FileTree.unlink]
  split
  · next hnone => rw [hi] at hnone; cases hnone
  · next j hj =>
    rw [hi] at hj
    cases hj
    exact ⟨_, dif_neg hdir⟩

theorem rmdir_eq (h : t.rmdir p = some t') : t'.inode = Function.update t.inode p none ∧
    (∃ i, t.inode p = some i ∧ i.type = .dir) ∧ t.children p = [] := by
  rw [FileTree.rmdir] at h
  split at h
  · cases h
  · next i hi =>
    split at h
    · next hdir =>
      split at h
      · next hempty =>
        cases h
        exact ⟨rfl, ⟨i, hi, hdir⟩, hempty⟩
      · cases h
    · cases h

theorem rmdir_of_empty (hi : t.inode p = some i) (hdir : i.type = .dir) (h : t.children p = []) :
    ∃ t', t.rmdir p = some t' := by
  rw [FileTree.rmdir, hi]
  exact ⟨_, by simp only [hdir, if_true]; rw [dif_pos h]⟩

/-- A path in the tree has every path above it in the tree. -/
theorem above_mem (hq : t.inode q ≠ none) (h : p <:+ q) : t.inode p ≠ none := by
  induction q with
  | nil =>
    rw [List.suffix_nil.mp h]
    exact hq
  | cons name q ih =>
    cases List.suffix_cons_iff.mp h with
    | inl h => rwa [h]
    | inr h =>
      obtain ⟨i, hi, -⟩ := t.parent name q hq
      exact ih (by rw [hi]; exact Option.some_ne_none i) h

/-- Below a path that something lies below, something lies directly below. -/
theorem child_of_below (hq : t.inode q ≠ none) (h : p <:+ q) (hne : q ≠ p) :
    ∃ name, t.inode (name :: p) ≠ none ∧ (name :: p) <:+ q := by
  induction q with
  | nil => exact absurd (List.suffix_nil.mp h).symm hne
  | cons name q ih =>
    cases List.suffix_cons_iff.mp h with
    | inl h => exact absurd h.symm hne
    | inr h =>
      by_cases heq : q = p
      · subst heq
        exact ⟨name, hq, List.suffix_rfl⟩
      · obtain ⟨i, hi, -⟩ := t.parent name q hq
        obtain ⟨n, hn, hsuffix⟩ := ih (by rw [hi]; exact Option.some_ne_none i) h heq
        exact ⟨n, hn, hsuffix.trans (List.suffix_cons name q)⟩

end Calls

/-- Nothing outside of the scope is touched, inside of it things are at most removed, and no socket
and no block device ever is. -/
structure Pruned (scope : Path → Prop) (t t' : FileTree) : Prop where
  outside : ∀ q, ¬scope q → t'.inode q = t.inode q
  inside : ∀ q, t'.inode q = t.inode q ∨ t'.inode q = none
  kept : ∀ q i, t.inode q = some i → i.Mistaken → t'.inode q = some i

section Pruned

variable {scope scope' : Path → Prop} {t t₁ t' : FileTree} {p q : Path} {i : Inode}

theorem Pruned.refl (t : FileTree) : Pruned scope t t :=
  ⟨fun _ _ => rfl, fun _ => .inl rfl, fun _ _ h _ => h⟩

theorem Pruned.trans (h : Pruned scope t t₁) (h' : Pruned scope t₁ t') : Pruned scope t t' where
  outside q hq := (h'.outside q hq).trans (h.outside q hq)
  inside q := by
    cases h'.inside q with
    | inl hq =>
      rw [hq]
      exact h.inside q
    | inr hq => exact .inr hq
  kept q i hi hm := h'.kept q i (h.kept q i hi hm) hm

theorem Pruned.mono (h : Pruned scope t t') (hle : ∀ q, scope q → scope' q) : Pruned scope' t t' where
  outside q hq := h.outside q fun hs => hq (hle q hs)
  inside := h.inside
  kept := h.kept

theorem Pruned.of_some (h : Pruned scope t t') (hi : t'.inode q = some i) : t.inode q = some i := by
  cases h.inside q with
  | inl hq => rwa [← hq]
  | inr hq =>
    rw [hq] at hi
    cases hi

theorem Pruned.of_none (h : Pruned scope t t') (hq : t.inode q = none) : t'.inode q = none := by
  cases h.inside q with
  | inl hsame => rwa [hsame]
  | inr hnone => exact hnone

/-- One path taken out that holds no socket and no block device. -/
theorem pruned_update (h : t'.inode = Function.update t.inode p none) (hp : scope p)
    (hi : t.inode p = some i) (hm : ¬i.Mistaken) : Pruned scope t t' where
  outside q hq := by
    rw [h, Function.update_of_ne]
    rintro rfl
    exact hq hp
  inside q := by
    rw [h]
    by_cases hq : q = p
    · subst hq
      exact .inr (Function.update_self ..)
    · exact .inl (Function.update_of_ne hq ..)
  kept q j hj hmj := by
    rw [h, Function.update_of_ne, hj]
    rintro rfl
    rw [hi] at hj
    cases hj
    exact hm hmj

end Pruned

/-! ## What `Rm` does -/

/-- No call fails. -/
def System.Permits (sys : System) : Prop := ∀ i, sys.fails i = false

/-- There is neither a socket nor a block device in the subtree. -/
def Clean (t : FileTree) (p : Path) : Prop := ∀ q i, p <:+ q → t.inode q = some i → ¬i.Mistaken

theorem Clean.pruned {scope : Path → Prop} {t t' : FileTree} {p : Path} (hc : Clean t p)
    (h : Pruned scope t t') : Clean t' p := fun q i hq hi => hc q i hq (h.of_some hi)

theorem Clean.child {t : FileTree} {p : Path} (hc : Clean t p) (name : String) :
    Clean t (name :: p) := fun q i hq hi => hc q i ((List.suffix_cons name p).trans hq) hi

/-- A call of `Rm`: it stays in the subtree, of which nothing is left when it returns true, and it
returns true when nothing fails and there is nothing it mistakes for a directory. -/
structure Removed (sys : System) (p : Path) (w : World) (ret : Bool) (w' : World) : Prop where
  pruned : Pruned (fun q => p <:+ q) w.tree w'.tree
  gone : ret = true → ∀ q, p <:+ q → w'.tree.inode q = none
  permitted : sys.Permits → Clean w.tree p → ret = true

section Spec

variable {sys : System} {w : World} {p : Path} {i : Inode}

/-- The subtree is gone with its top when that had nothing below it. -/
theorem gone_of_update {t t' : FileTree} (h : t'.inode = Function.update t.inode p none)
    (hempty : ∀ name, t.inode (name :: p) = none) : ∀ q, p <:+ q → t'.inode q = none := by
  intro q hq
  rw [h]
  by_cases heq : q = p
  · subst heq
    exact Function.update_self ..
  · rw [Function.update_of_ne heq]
    by_contra hne
    obtain ⟨name, hname, -⟩ := child_of_below hne hq heq
    exact hname (hempty name)

theorem removed_unlink (hi : w.tree.inode p = some i) (hdir : i.type ≠ .dir) (hm : ¬i.Mistaken) :
    Removed sys p w (Unlink sys p false w).1 (Unlink sys p false w).2 := by
  have hstat : (w.lstat p).isNone = false := by rw [World.lstat, hi]; rfl
  obtain ⟨t', ht'⟩ := unlink_of_not_dir hi hdir
  rw [Unlink, hstat, Bool.and_false, if_neg Bool.false_ne_true, World.unlink]
  by_cases hfails : sys.fails w.calls = true
  · rw [if_pos hfails]
    exact ⟨Pruned.refl _, nofun, fun hp => absurd hfails (by simp [hp w.calls])⟩
  · rw [if_neg hfails, ht']
    have heq := (unlink_eq ht').1
    exact ⟨pruned_update heq List.suffix_rfl hi hm,
      fun _ => gone_of_update heq (w.tree.not_dir_childless hi hdir), fun _ _ => rfl⟩

/-- The loop, when every call for one of the names is right. -/
theorem rmLoop_spec {rm : Path → World → Option (Bool × World)} {names : List String} {ret : Bool}
    (hrm : ∀ name ∈ names, name ≠ "." → name ≠ ".." → ∀ w₁ : World,
      Pruned (fun q => p <:+ q) w.tree w₁.tree →
      ∃ ret₁ w₂, rm (name :: p) w₁ = some (ret₁, w₂) ∧ Removed sys (name :: p) w₁ ret₁ w₂) :
    ∃ ret' w', rmLoop rm p names ret w = some (ret', w') ∧
      Pruned (fun q => ∃ name, (name :: p) <:+ q) w.tree w'.tree ∧
      (sys.Permits → Clean w.tree p → ret = true → ret' = true ∧
        ∀ name ∈ names, name ≠ "." → name ≠ ".." → w'.tree.inode (name :: p) = none) := by
  induction names generalizing w ret with
  | nil => exact ⟨ret, w, rfl, Pruned.refl _, fun _ _ h => ⟨h, nofun⟩⟩
  | cons name names ih =>
    rw [rmLoop]
    by_cases hdots : name = "." ∨ name = ".."
    · obtain ⟨ret', w', hok, hpruned, hpermitted⟩ := @ih w ret
        fun n hn => hrm n (List.mem_cons_of_mem _ hn)
      refine ⟨ret', w', by rw [if_pos hdots, hok], hpruned, fun hp hc hret => ?_⟩
      obtain ⟨hret', hgone⟩ := hpermitted hp hc hret
      refine ⟨hret', fun n hn h₁ h₂ => ?_⟩
      cases List.mem_cons.mp hn with
      | inl h =>
        subst h
        exact absurd hdots (by simp [h₁, h₂])
      | inr h => exact hgone n h h₁ h₂
    · obtain ⟨hdot, hdotdot⟩ := not_or.mp hdots
      obtain ⟨ret₁, w₁, hcall, hremoved⟩ := hrm name (List.mem_cons_self ..) hdot hdotdot w
        (Pruned.refl _)
      have hbelow : Pruned (fun q => p <:+ q) w.tree w₁.tree :=
        hremoved.pruned.mono fun q hq => (List.suffix_cons name p).trans hq
      obtain ⟨ret', w', hok, hpruned, hpermitted⟩ := @ih w₁ ret₁
        fun n hn h₁ h₂ w₂ hw₂ => hrm n (List.mem_cons_of_mem _ hn) h₁ h₂ w₂ (hbelow.trans hw₂)
      refine ⟨ret', w', by simp only [if_neg hdots, hcall, hok], ?_, fun hp hc _ => ?_⟩
      · exact (hremoved.pruned.mono fun q hq => ⟨name, hq⟩).trans hpruned
      · have hret₁ := hremoved.permitted hp (hc.child name)
        obtain ⟨hret', hgone⟩ := hpermitted hp (hc.pruned hbelow) hret₁
        refine ⟨hret', fun n hn h₁ h₂ => ?_⟩
        cases List.mem_cons.mp hn with
        | inl h =>
          subst h
          exact hpruned.of_none (hremoved.gone hret₁ _ List.suffix_rfl)
        | inr h => exact hgone n h h₁ h₂

/-- The branch of directories, after `opendir`: what the loop leaves is taken out by `rmdir`, if it
succeeds. -/
theorem removed_rmdir {w₁ : World} {ret : Bool} (hi : w.tree.inode p = some i) (hdir : i.type = .dir)
    (hpruned : Pruned (fun q => ∃ name, (name :: p) <:+ q) w.tree w₁.tree)
    (hret : sys.Permits → Clean w.tree p → ret = true ∧ w₁.tree.children p = []) :
    Removed sys p w (ret && (w₁.rmdir sys p).1) (w₁.rmdir sys p).2 := by
  have hm : ¬i.Mistaken := by rw [Inode.Mistaken, hdir]; decide
  have hbelow : Pruned (fun q => p <:+ q) w.tree w₁.tree :=
    hpruned.mono fun q ⟨name, hq⟩ => (List.suffix_cons name p).trans hq
  have hi₁ : w₁.tree.inode p = some i := by
    rw [hpruned.outside p, hi]
    rintro ⟨name, hle⟩
    have := hle.length_le
    rw [List.length_cons] at this
    omega
  rw [World.rmdir]
  by_cases hfails : sys.fails w₁.calls = true
  · rw [if_pos hfails, Bool.and_false]
    exact ⟨hbelow, nofun, fun hp => absurd hfails (by simp [hp w₁.calls])⟩
  · rw [if_neg hfails]
    cases hrmdir : w₁.tree.rmdir p with
    | none =>
      rw [Bool.and_false]
      refine ⟨hbelow, nofun, fun hp hc => ?_⟩
      obtain ⟨t', ht'⟩ := rmdir_of_empty hi₁ hdir (hret hp hc).2
      rw [hrmdir] at ht'
      cases ht'
    | some t' =>
      obtain ⟨heq, -, hempty⟩ := rmdir_eq hrmdir
      rw [Bool.and_true]
      exact ⟨hbelow.trans (pruned_update heq List.suffix_rfl hi₁ hm),
        fun _ => gone_of_update heq (w₁.tree.children_nil hempty), fun hp hc => (hret hp hc).1⟩

/-- `Rm`, when every call for something in the directory is right. -/
theorem Rm_step {depth : Nat}
    (hrm : ∀ name, w.tree.inode (name :: p) ≠ none → ∀ w₁ : World,
      Pruned (fun q => p <:+ q) w.tree w₁.tree →
      ∃ ret₁ w₂, Rm sys depth (name :: p) w₁ = some (ret₁, w₂) ∧ Removed sys (name :: p) w₁ ret₁ w₂) :
    ∃ ret w', Rm sys (depth + 1) p w = some (ret, w') ∧ Removed sys p w ret w' := by
  rw [Rm]
  cases hi : w.tree.inode p with
  | none =>
    have hstat : w.lstat p = none := by rw [World.lstat, hi]; rfl
    rw [hstat]
    refine ⟨true, w, rfl, Pruned.refl _, fun _ q hq => ?_, fun _ _ => rfl⟩
    by_contra hne
    exact above_mem hne hq hi
  | some i =>
    have hstat : w.lstat p = some i.mode := by rw [World.lstat, hi]; rfl
    rw [hstat]
    by_cases hmode : i.mode &&& S_IFDIR = 0
    · obtain ⟨hdir, hm⟩ := (mode_eq_zero_iff i).mp hmode
      exact ⟨_, _, by simp only [hmode, if_true], removed_unlink hi hdir hm⟩
    · simp only [hmode, if_false]
      by_cases hfails : sys.fails w.calls = true
      · rw [World.opendir, if_pos hfails]
        exact ⟨false, w.count, rfl, Pruned.refl _, nofun,
          fun hp => absurd hfails (by simp [hp w.calls])⟩
      · rw [World.opendir, if_neg hfails, hi]
        by_cases hdir : i.type = .dir
        · have hlist := sys.perm w.calls ("." :: ".." :: w.tree.children p)
          obtain ⟨ret, w₁, hok, hpruned, hpermitted⟩ :=
            @rmLoop_spec sys w.count p (Rm sys depth)
              (sys.order w.calls ("." :: ".." :: w.tree.children p)) true
              fun name hname h₁ h₂ => by
                have hmem := hlist.mem_iff.mp hname
                simp only [List.mem_cons, h₁, h₂, false_or] at hmem
                exact hrm name (FileTree.mem_children.mp hmem)
          have hremoved : Removed sys p w (ret && (w₁.rmdir sys p).1) (w₁.rmdir sys p).2 := by
            apply removed_rmdir hi hdir hpruned
            intro hp hc
            obtain ⟨hret, hgone⟩ := hpermitted hp hc rfl
            refine ⟨hret, List.eq_nil_iff_forall_not_mem.mpr fun name hname => ?_⟩
            have hne := FileTree.mem_children.mp hname
            have hne₀ : w.tree.inode (name :: p) ≠ none := fun h => hne (hpruned.of_none h)
            obtain ⟨h₁, h₂⟩ := w.tree.names name p hne₀
            refine hne (hgone name (hlist.mem_iff.mpr ?_) h₁ h₂)
            simp [FileTree.mem_children.mpr hne₀]
          refine ⟨_, _, ?_, hremoved⟩
          simp only [hdir, if_true, hok]
          obtain ⟨rc, w₂⟩ := w₁.rmdir sys p
          cases rc <;> simp
        · simp only [hdir, if_false]
          refine ⟨false, w.count, rfl, Pruned.refl _, nofun, fun _ hc => ?_⟩
          have hm : ¬i.Mistaken := hc p i List.suffix_rfl hi
          exact absurd ((mode_eq_zero_iff i).mpr ⟨hdir, hm⟩) hmode

/-- `Rm` with a bound on how deep the subtree is. -/
theorem Rm_spec (depth : Nat)
    (hdepth : ∀ q, w.tree.inode q ≠ none → p <:+ q → q.length ≤ p.length + depth) :
    ∃ ret w', Rm sys (depth + 1) p w = some (ret, w') ∧ Removed sys p w ret w' := by
  induction depth generalizing w p with
  | zero =>
    apply Rm_step
    intro name hname
    have hle := hdepth (name :: p) hname (List.suffix_cons name p)
    rw [List.length_cons] at hle
    omega
  | succ depth ih =>
    apply Rm_step
    intro name _ w₁ hw₁
    apply ih
    intro q hq hsuffix
    have hne : w.tree.inode q ≠ none := fun h => hq (hw₁.of_none h)
    have hle := hdepth q hne ((List.suffix_cons name p).trans hsuffix)
    rw [List.length_cons]
    omega

/-! ## Deep enough -/

theorem rmLoop_mono {rm rm' : Path → World → Option (Bool × World)}
    (h : ∀ q w r, rm q w = some r → rm' q w = some r) {names : List String} {ret : Bool}
    {r : Bool × World} (hr : rmLoop rm p names ret w = some r) : rmLoop rm' p names ret w = some r := by
  induction names generalizing ret w with
  | nil => exact hr
  | cons name names ih =>
    rw [rmLoop] at hr ⊢
    by_cases hdots : name = "." ∨ name = ".."
    · rw [if_pos hdots] at hr ⊢
      exact ih hr
    · rw [if_neg hdots] at hr ⊢
      cases hcall : rm (name :: p) w with
      | none => simp [hcall] at hr
      | some answer =>
        simp only [hcall] at hr
        simp only [h _ _ _ hcall]
        exact ih hr

theorem Rm_mono {depth more : Nat} (hle : depth ≤ more) {r : Bool × World}
    (hr : Rm sys depth p w = some r) : Rm sys more p w = some r := by
  induction depth generalizing more p w r with
  | zero => simp [Rm] at hr
  | succ depth ih =>
    obtain ⟨more, rfl⟩ : ∃ m, more = m + 1 := Nat.exists_eq_succ_of_ne_zero (by omega)
    rw [Rm] at hr ⊢
    cases hstat : w.lstat p with
    | none => rwa [hstat] at hr
    | some mode =>
      rw [hstat] at hr
      by_cases hmode : mode &&& S_IFDIR = 0
      · simpa only [hmode, if_true] using hr
      · simp only [hmode, if_false] at hr ⊢
        rcases hopen : w.opendir sys p with ⟨names, w₁⟩
        rw [hopen] at hr
        cases names with
        | none => exact hr
        | some names =>
          cases hloop : rmLoop (Rm sys depth) p names true w₁ with
          | none => simp [hloop] at hr
          | some answer =>
            have hle : depth ≤ more := by omega
            have hmore := rmLoop_mono (fun _ _ _ h => ih hle h) hloop
            simp only [hloop] at hr
            simp only [hmore]
            exact hr

end Spec

/-- How long a path can be. -/
def FileTree.height (t : FileTree) : Nat := (t.paths.map List.length).foldr max 0

theorem length_le_foldr {p : Path} {paths : List Path} (h : p ∈ paths) :
    p.length ≤ (paths.map List.length).foldr max 0 := by
  induction paths with
  | nil => cases h
  | cons q paths ih =>
    rw [List.map_cons, List.foldr_cons]
    cases List.mem_cons.mp h with
    | inl h =>
      subst h
      exact Nat.le_max_left _ _
    | inr h => exact Nat.le_trans (ih h) (Nat.le_max_right _ _)

theorem FileTree.length_le_height {t : FileTree} {p : Path} (h : t.inode p ≠ none) :
    p.length ≤ t.height := length_le_foldr ((t.mem_paths p).mpr h)

/-- True, with exactly the subtree gone. -/
structure Exact (p : Path) (t : FileTree) (ret : Bool) (t' : FileTree) : Prop where
  returns : ret = true
  gone : ∀ q, p <:+ q → t'.inode q = none
  rest : ∀ q, ¬p <:+ q → t'.inode q = t.inode q

/-- `Rm` comes to an end, touches nothing outside of the subtree and returns false when something of
it is left, whatever fails. With nothing failing it is exact if and only if there is neither a socket
nor a block device in the subtree. -/
theorem Rm_exact_iff (sys : System) (w : World) (p : Path) :
    ∃ ret w', (∀ depth, w.tree.height < depth → Rm sys depth p w = some (ret, w')) ∧
      ((∃ q, p <:+ q ∧ w'.tree.inode q ≠ none) → ret = false) ∧
      (∀ q, ¬p <:+ q → w'.tree.inode q = w.tree.inode q) ∧
      (sys.Permits → (Exact p w.tree ret w'.tree ↔ Clean w.tree p)) := by
  obtain ⟨ret, w', hok, hremoved⟩ := @Rm_spec sys w p w.tree.height fun q hq _ =>
    Nat.le_trans (FileTree.length_le_height hq) (Nat.le_add_left ..)
  refine ⟨ret, w', fun depth hdepth => Rm_mono hdepth hok, ?_, hremoved.pruned.outside, ?_⟩
  · rintro ⟨q, hq, hne⟩
    by_contra hret
    exact hne (hremoved.gone (by simpa using hret) q hq)
  · intro hp
    constructor
    · intro hexact q i hq hi hm
      have hkept := hremoved.pruned.kept q i hi hm
      rw [hexact.gone q hq] at hkept
      cases hkept
    · intro hc
      have hret := hremoved.permitted hp hc
      exact ⟨hret, hremoved.gone hret, hremoved.pruned.outside⟩

/-- No call fails, and directories are read in the order of the tree. -/
def permissive : System where
  fails _ := false
  order _ names := names
  perm _ names := .refl names

/-- A directory with a socket in it. -/
def withSocket : FileTree where
  inode q := if q = [] then some ⟨.dir, 0o755⟩ else if q = ["s"] then some ⟨.socket, 0o755⟩ else none
  paths := [[], ["s"]]
  mem_paths q := by
    by_cases h₁ : q = []
    · simp [h₁]
    · by_cases h₂ : q = ["s"]
      · simp [h₂]
      · simp [h₁, h₂]
  nodup := by decide
  parent name q hq := by
    have hroot : q = [] := by
      by_contra hne
      exact hq (by simp [hne])
    exact ⟨_, if_pos hroot, rfl⟩
  names name q hq := by
    have hname : name = "s" := by
      by_contra hne
      exact hq (by simp [hne])
    subst hname
    decide

/-- The socket is opened as a directory: it stays, and `Rm` returns false. -/
theorem socket_left : ∃ w', Rm permissive 2 ["s"] ⟨withSocket, 0⟩ = some (false, w') ∧
    w'.tree.inode ["s"] = some ⟨.socket, 0o755⟩ := ⟨_, rfl, rfl⟩

end CxkFramework.FileRemoval
