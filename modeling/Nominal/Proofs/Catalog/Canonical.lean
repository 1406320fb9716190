import Nominal.Proofs.Catalog.Interning
import Nominal.Proofs.Reference.Reading

/-!
# Canonical names

Where types come from references only, the name of a type tells what it is. A name is bare, or it is
that of a base with those of the arguments in brackets, and then it can be taken apart in one way
only. So the name of a new row is never taken, and a type is always found under its own name.

## Main results

* `appliedName_inj`: the name of a parameterized type determines the names of its parts.
* `View.Canonical.lookup?_appliedName`: the name of a new row denotes nothing.
* `View.Canonical.exists_applied`: a text with parameters denotes what is named by it, if anything.
* `View.Canonical.enter_plain` and `View.Canonical.enter_applied`: the two ways in which a new type
  keeps names canonical.
-/

namespace Nominal

open Text Reference

/-! ### Applied names -/

theorem toList_appliedName (base : String) (args : List String) :
    (appliedName base args).toList =
      bracketed base.toList ([',', ' '].intercalate (args.map String.toList)) := by
  simp [appliedName, bracketed, String.toList_intercalate]

/-- The name of a parameterized type determines the names of its parts. -/
theorem appliedName_inj {base base' : String} {args args' : List String}
    (hbase : '<' ∉ base.toList) (hbase' : '<' ∉ base'.toList)
    (hargs : Apart 0 (args.map String.toList)) (hargs' : Apart 0 (args'.map String.toList))
    (h : appliedName base args = appliedName base' args') : base = base' ∧ args = args' := by
  have hlist := congrArg String.toList h
  rw [toList_appliedName, toList_appliedName] at hlist
  obtain ⟨hb, hinner⟩ := bracketed_inj hbase hbase' hlist
  rw [← intercalate_spaced, ← intercalate_spaced] at hinner
  have hpieces := congrArg (pieces 0) hinner
  rw [pieces_intercalate (apart_spaced hargs), pieces_intercalate (apart_spaced hargs')] at hpieces
  exact ⟨String.toList_injective hb,
    List.map_injective_iff.2 (fun _ _ => String.toList_injective) (spaced_injective hpieces)⟩

theorem mem_appliedName (base : String) (args : List String) :
    '<' ∈ (appliedName base args).toList := by
  rw [toList_appliedName]
  exact mem_bracketed _ _

/-- The name of a parameterized type starts with that of the base and ends with a bracket. -/
theorem trimmed_appliedName {base : String} (hbase : Bare base.toList) (args : List String) :
    (appliedName base args).toList ≠ [] ∧ Trimmed (appliedName base args).toList := by
  have hclose : Trimmed ['>'] := by decide
  have htrim := hbase.trimmed.append hclose hbase.ne_nil (by simp)
    ('<' :: [',', ' '].intercalate (args.map String.toList))
  rw [toList_appliedName, bracketed]
  refine ⟨by simp, ?_⟩
  simpa using htrim

/-- A bare name is no name of a parameterized type. -/
theorem not_bare_appliedName (base : String) (args : List String) :
    ¬ Bare (appliedName base args).toList := fun h => by
  refine h.opened (mem_appliedName base args) ?_
  rw [toList_appliedName]
  exact getLast?_bracketed _ _

/-! ### Keys of primitive kinds -/

/-- What the type of a name is called at first: a key of a primitive kind stands for its display
name, and any other name for itself. -/
def Primitive.nameOf (name : String) : String :=
  ((ofKey? name).map display).getD name

namespace Primitive

theorem eq_key_of_ofKey? {name : String} {p : Primitive} (h : ofKey? name = some p) :
    name = p.key := by
  simpa [eq_comm] using List.find?_some h

theorem nameOf_of_ofKey? {name : String} (h : ofKey? name = none) : nameOf name = name := by
  rw [nameOf, h]
  rfl

theorem nameOf_key (p : Primitive) : nameOf p.key = p.display := by
  rw [nameOf, ofKey?_key]
  rfl

theorem nameOf_display (p : Primitive) : nameOf p.display = p.display := by
  cases p <;> rfl

/-- No key has a bracket or a colon in it. -/
theorem nameOf_of_mem {name : String} {c : Char} (hc : c ∈ ['<', ':']) (h : c ∈ name.toList) :
    nameOf name = name := by
  have hkey : ∀ p : Primitive, (p.key.toList.any (· ∈ ['<', ':'])) = false := fun p => by
    cases p <;> decide
  refine nameOf_of_ofKey? (Option.eq_none_iff_forall_ne_some.2 fun p hp => ?_)
  rw [eq_key_of_ofKey? hp] at h
  exact Bool.false_ne_true
    ((hkey p).symm.trans (List.any_eq_true.2 ⟨c, h, decide_eq_true hc⟩))

/-- A display name mirrors its key. -/
theorem mirrors_nameOf (name : String) : Mirrors (nameOf name).toList name.toList := by
  cases h : ofKey? name with
  | none =>
      rw [nameOf_of_ofKey? h]
      exact Mirrors.refl _
  | some p =>
      have hcomma : ∀ p : Primitive, ',' ∉ p.display.toList ∧
          rise p.display.toList = rise p.key.toList := fun p => by
        cases p <;> decide
      rw [eq_key_of_ofKey? h, nameOf_key]
      exact ⟨(hcomma p).2, fun _ _ => uncut_of_notMem (hcomma p).1⟩

theorem bare_display (p : Primitive) : Bare p.display.toList := by
  have hspec : p.display.toList ≠ [] ∧ Trimmed p.display.toList ∧ '<' ∉ p.display.toList := by
    cases p <;> decide
  exact ⟨hspec.1, hspec.2.1, fun h => absurd h hspec.2.2⟩

end Primitive

/-! ### Named types -/

namespace View

variable {old : Nat} {v v' : View} {t u base : TypeId} {args : List TypeId} {bn n m : String}
  {ns : List String} {row : List Token}

/-- A type that is found under its own name. -/
structure Named (v : View) (t : TypeId) (n : String) : Prop where
  /-- The type has the name. -/
  name : v.name? t = some (some (.ofText n))
  /-- The name denotes the type. -/
  found : v.lookup? n = some t

theorem Named.mono (h : v.Named t n) (hv : v.Extends v') : v'.Named t n :=
  ⟨hv.name? h.name, hv.lookup? h.found⟩

theorem Named.unique (h : v.Named t n) (h' : v.Named t m) : n = m := by
  have hname := h.name.symm.trans h'.name
  simp only [Option.some.injEq] at hname
  exact congrArg Label.spelling hname

theorem Named.type_unique (h : v.Named t n) (h' : v.Named u n) : t = u :=
  Option.some.inj (h.found.symm.trans h'.found)

theorem called_of_named {ts : List TypeId} (h : List.Forall₂ v.Named ts ns) : v.Called ts ns := by
  induction h with
  | nil => rfl
  | cons ht _ ih => exact congr_arg₂ List.cons ht.name ih

/-- A parameterized type that is named after its named parts, and is found at the end of its row. -/
structure Applied (v : View) (t base : TypeId) (args : List TypeId) (bn : String)
    (ns : List String) : Prop where
  /-- The parts of the type. -/
  parts : v.parts? t = some (some ⟨some base, args.map some⟩)
  /-- The base is found under its name. -/
  base_named : v.Named base bn
  /-- So are the arguments. -/
  args_named : List.Forall₂ v.Named args ns
  /-- And so is the type, under the name made of these. -/
  named : v.Named t (appliedName bn ns)
  /-- The name of the base is bare. -/
  bare : Bare bn.toList
  /-- It has no bracket in it. -/
  plain : '<' ∉ bn.toList
  /-- The names of the arguments stand apart. -/
  apart : Apart 0 (ns.map String.toList)
  /-- The row leads to the type. -/
  placed : ∃ row, v.Row (base :: args) row ∧ v.find? row = some t

theorem Applied.mono (h : v.Applied t base args bn ns) (hv : v.Extends v') :
    v'.Applied t base args bn ns := by
  obtain ⟨row, hrow, hfind⟩ := h.placed
  exact ⟨hv.parts? h.parts, h.base_named.mono hv, h.args_named.imp fun _ _ ht => ht.mono hv,
    h.named.mono hv, h.bare, h.plain, h.apart, ⟨row, hrow.mono hv, hv.find? hfind⟩⟩

theorem Applied.args_ne_nil (h : v.Applied t base args bn ns) : args ≠ [] := by
  rintro rfl
  have hapart := h.apart
  rw [List.forall₂_nil_left_iff.1 h.args_named] at hapart
  exact hapart

/-- A type has one row of parts. -/
theorem Applied.parts_unique {base' : TypeId} {args' : List TypeId} {bn' : String}
    {ns' : List String} (h : v.Applied t base args bn ns) (h' : v.Applied t base' args' bn' ns') :
    base = base' ∧ args = args' := by
  have hparts := h.parts.symm.trans h'.parts
  simpa [List.map_inj_right] using hparts

/-- A row of parts has one type. -/
theorem Applied.type_unique {bn' : String} {ns' : List String} (h : v.Applied t base args bn ns)
    (h' : v.Applied u base args bn' ns') : t = u := by
  obtain ⟨row, hrow, hfind⟩ := h.placed
  obtain ⟨row', hrow', hfind'⟩ := h'.placed
  rw [hrow.unique hrow', hfind'] at hfind
  exact (Option.some.inj hfind).symm

/-- The view with a new parameterized type at the end of its row. -/
def enterApplied (v : View) (base : TypeId) (args : List TypeId) (n : String) (row : List Token) :
    View :=
  (v.enter n (some ⟨some base, args.map some⟩)).counted.place row v.next

theorem enterApplied_find? (row' : List Token) :
    (v.enterApplied base args n row).find? row' =
      if row' = row then some v.next else v.find? row' :=
  place_find? _ v.next row row'

/-! ### The invariant -/

/-- What can be said of the types of a registry from `old` on if they come from references only. -/
structure Canonical (old : Nat) (v : View) : Prop where
  /-- A name denotes a type of the registry that is called by it, or by the display name that it
  stands for. -/
  entry : ∀ {n t}, v.lookup? n = some t →
    old ≤ t.index ∧ t.index < v.size ∧ v.Named t (Primitive.nameOf n)
  /-- Every type of the registry is found under its own name. -/
  owned : ∀ {t}, old ≤ t.index → t.index < v.size → ∃ n, v.Named t n
  /-- It has a token. -/
  token : ∀ {t}, old ≤ t.index → t.index < v.size →
    ∃ k, v.token? t = some k ∧ k.serial < v.nextSerial
  /-- No two types of the registry share one. -/
  token_inj : ∀ {t u k}, old ≤ t.index → t.index < v.size → old ≤ u.index → u.index < v.size →
    v.token? t = some k → v.token? u = some k → t = u
  /-- It can be described. -/
  writable : ∀ {t}, old ≤ t.index → t.index < v.size → v.obstacle? t = none
  /-- It has no parts and a bare name, or it is named after its parts. -/
  shape : ∀ {t n}, v.Named t n → (v.parts? t = some none ∧ Bare n.toList) ∨
    ∃ base args bn ns, n = appliedName bn ns ∧ v.Applied t base args bn ns
  /-- A row leads to the type that has its parts. -/
  found : ∀ {row t}, v.find? row = some t →
    ∃ base args bn ns, v.Row (base :: args) row ∧ v.Applied t base args bn ns

namespace Canonical

/-- A type that is found under its name belongs to the registry. -/
theorem mem (h : v.Canonical old) (ht : v.Named t n) : old ≤ t.index ∧ t.index < v.size :=
  ⟨(h.entry ht.found).1, (h.entry ht.found).2.1⟩

theorem called_nameOf (h : v.Canonical old) (ht : v.lookup? n = some t) :
    v.Named t (Primitive.nameOf n) :=
  (h.entry ht).2.2

/-- Names are trimmed. -/
theorem trimmed (h : v.Canonical old) (ht : v.Named t n) : n.toList ≠ [] ∧ Trimmed n.toList := by
  rcases h.shape ht with ⟨-, hbare⟩ | ⟨base, args, bn, ns, rfl, happ⟩
  · exact ⟨hbare.ne_nil, hbare.trimmed⟩
  · exact trimmed_appliedName happ.bare ns

/-- A type with a bare name has no parts. -/
theorem parts?_of_bare (h : v.Canonical old) (ht : v.Named t n) (hn : Bare n.toList) :
    v.parts? t = some none := by
  rcases h.shape ht with ⟨hparts, -⟩ | ⟨base, args, bn, ns, rfl, happ⟩
  · exact hparts
  · exact absurd hn (not_bare_appliedName bn ns)

/-- The name of a new row denotes nothing: what it denoted would have the same parts, and so would
be at the end of the row. -/
theorem lookup?_appliedName (h : v.Canonical old) (hbase : v.Named base bn)
    (hargs : List.Forall₂ v.Named args ns) (hplain : '<' ∉ bn.toList)
    (hapart : Apart 0 (ns.map String.toList)) (hrow : v.Row (base :: args) row)
    (hfind : v.find? row = none) : v.lookup? (appliedName bn ns) = none := by
  refine Option.eq_none_iff_forall_ne_some.2 fun u hu => ?_
  have hnamed := h.called_nameOf hu
  rw [Primitive.nameOf_of_mem (by decide) (mem_appliedName bn ns)] at hnamed
  rcases h.shape hnamed with ⟨-, hbare⟩ | ⟨base', args', bn', ns', hname, happ⟩
  · exact not_bare_appliedName bn ns hbare
  · obtain ⟨rfl, rfl⟩ := appliedName_inj hplain happ.plain hapart happ.apart hname
    have hleft : Relator.LeftUnique v.Named := fun _ _ _ ht hu => ht.type_unique hu
    obtain rfl := hbase.type_unique happ.base_named
    obtain rfl := List.left_unique_forall₂' hleft hargs happ.args_named
    obtain ⟨row', hrow', hfind'⟩ := happ.placed
    rw [hrow'.unique hrow, hfind] at hfind'
    cases hfind'

/-- A text with a parameter list that denotes a type is the name made of those of the parts: what
stands before the bracket is the name of the base, and the parameters are those of the arguments. -/
theorem exists_applied (h : v.Canonical old) (ht : v.lookup? n = some t) {head inner : List Char}
    (hn : n.toList = bracketed head inner) (hhead : '<' ∉ head) :
    ∃ base args bn ns, v.Applied t base args bn ns ∧ head = bn.toList ∧
      parameters inner = ns.map String.toList := by
  have hmem : '<' ∈ n.toList := hn ▸ mem_bracketed head inner
  have hnamed := h.called_nameOf ht
  rw [Primitive.nameOf_of_mem (by decide) hmem] at hnamed
  rcases h.shape hnamed with ⟨-, hbare⟩ | ⟨base, args, bn, ns, rfl, happ⟩
  · exact absurd (hn ▸ getLast?_bracketed head inner) (hbare.opened hmem)
  · rw [toList_appliedName] at hn
    obtain ⟨rfl, rfl⟩ := bracketed_inj hhead happ.plain hn.symm
    refine ⟨base, args, bn, ns, happ, rfl, parameters_spaced (apart_spaced happ.apart) ?_⟩
    rintro p hp
    obtain ⟨m, hm, rfl⟩ := List.mem_map.1 hp
    obtain ⟨u, -, hu⟩ := exists_mem_left happ.args_named hm
    exact h.trimmed hu

/-! ### New types -/

theorem eq_next_or_lt {v : View} {t : TypeId} (h : t.index < v.size + 1) :
    t = v.next ∨ t.index < v.size := by
  rcases Nat.lt_succ_iff_lt_or_eq.1 h with hlt | heq
  · exact .inr hlt
  · refine .inl ?_
    cases t
    cases heq
    rfl

/-- One type more is given a token that no other has. Then no two types share one, if none did
before. -/
theorem eq_of_token?_eq {here here' : TypeId → Prop} {new : Token}
    (htoken : ∀ t, v'.token? t = if t = v.next then some new else v.token? t)
    (hsplit : ∀ {t}, here' t → t = v.next ∨ t ≠ v.next ∧ here t)
    (hunused : ∀ {t}, here t → v.token? t ≠ some new)
    (hinj : ∀ {t u k}, here t → here u → v.token? t = some k → v.token? u = some k → t = u)
    {k : Token} (ht : here' t) (hu : here' u) (hkt : v'.token? t = some k)
    (hku : v'.token? u = some k) : t = u := by
  rw [htoken] at hkt hku
  rcases hsplit ht with rfl | ⟨hnet, ht⟩ <;> rcases hsplit hu with rfl | ⟨hneu, hu⟩
  · rfl
  · rw [if_pos rfl] at hkt
    rw [if_neg hneu, ← hkt] at hku
    exact absurd hku (hunused hu)
  · rw [if_pos rfl] at hku
    rw [if_neg hnet, ← hku] at hkt
    exact absurd hkt (hunused ht)
  · rw [if_neg hnet] at hkt
    rw [if_neg hneu] at hku
    exact hinj ht hu hkt hku

/-- A type that is found under its name after a new one was entered is the new one, or it was found
before. -/
theorem named_of_enter {parts : Option TypeParts} (ht : (v.enter n parts).Named t m) :
    t = v.next ∧ m = n ∨ t ≠ v.next ∧ v.Named t m := by
  have hname := ht.name
  have hfound := ht.found
  rw [enter_name?] at hname
  rw [enter_lookup?] at hfound
  by_cases hnext : t = v.next
  · rw [if_pos hnext] at hname
    simp only [Option.some.injEq] at hname
    exact .inl ⟨hnext, (congrArg Label.spelling hname).symm⟩
  · rw [if_neg hnext] at hname
    rw [if_neg fun hm => hnext (by rw [if_pos hm] at hfound; exact (Option.some.inj hfound).symm)]
      at hfound
    exact .inr ⟨hnext, hname, hfound⟩

/-- A new type is entered under a name that denotes nothing; the tree may come to lead to it. -/
theorem enter (h : v.Canonical old) (hold : old ≤ v.size) {parts : Option TypeParts}
    {f : List Token → Option TypeId} {k : Nat}
    (hv : v' = { v.enter n parts with find? := f, count := k }) (hext : v.Extends v')
    (hfree : v.lookup? n = none) (hname : Primitive.nameOf n = n)
    (hshape : v'.parts? v.next = some none ∧ Bare n.toList ∨
      ∃ base args bn ns, n = appliedName bn ns ∧ v'.Applied v.next base args bn ns)
    (hfound : ∀ {row t}, v'.find? row = some t →
      ∃ base args bn ns, v'.Row (base :: args) row ∧ v'.Applied t base args bn ns) :
    v'.Canonical old := by
  have hlookup : ∀ m, v'.lookup? m = if m = n then some v.next else v.lookup? m := fun m =>
    hv ▸ enter_lookup? v n parts m
  have htoken : ∀ t, v'.token? t = if t = v.next then some ⟨v.nextSerial, true⟩ else v.token? t :=
    fun t => hv ▸ enter_token? v n parts t
  have hobstacle : ∀ t, v'.obstacle? t = if t = v.next then none else v.obstacle? t := fun t =>
    hv ▸ enter_obstacle? v n parts t
  have hsize : v'.size = v.size + 1 := hv ▸ rfl
  have hserial : v'.nextSerial = v.nextSerial + 1 := hv ▸ rfl
  have hnew : v'.Named v.next n := by
    refine ⟨?_, by rw [hlookup, if_pos rfl]⟩
    rw [hv]
    exact (enter_name? v n parts v.next).trans (if_pos rfl)
  have hold' : ∀ {t m}, v'.Named t m → t = v.next ∧ m = n ∨ t ≠ v.next ∧ v.Named t m :=
    fun {t m} ht => by
      have henter : (v.enter n parts).Named t m := by
        subst hv
        exact ⟨ht.name, ht.found⟩
      exact named_of_enter henter
  have hlive : ∀ {t : TypeId}, t.index < v'.size → t = v.next ∨ t.index < v.size := fun ht =>
    eq_next_or_lt (hsize ▸ ht)
  have hne : ∀ {t : TypeId}, t.index < v.size → t ≠ v.next := fun ht e => by
    subst e
    exact Nat.lt_irrefl _ ht
  refine
    { entry := ?entry
      owned := ?owned
      token := ?token
      token_inj := ?token_inj
      writable := ?writable
      shape := ?shape
      found := hfound }
  case entry =>
    intro m t ht
    rw [hlookup] at ht
    split at ht
    · next hm =>
        obtain rfl := Option.some.inj ht
        subst hm
        exact ⟨hold, by rw [hsize]; exact Nat.lt_succ_self _, hname.symm ▸ hnew⟩
    · obtain ⟨hlo, hlt, hnamed⟩ := h.entry ht
      exact ⟨hlo, hsize ▸ Nat.lt_succ_of_lt hlt, hnamed.mono hext⟩
  case owned =>
    intro t hlo ht
    rcases hlive ht with rfl | hlt
    · exact ⟨n, hnew⟩
    · obtain ⟨m, hm⟩ := h.owned hlo hlt
      exact ⟨m, hm.mono hext⟩
  case token =>
    intro t hlo ht
    rcases hlive ht with rfl | hlt
    · exact ⟨⟨v.nextSerial, true⟩, by rw [htoken, if_pos rfl], hserial ▸ Nat.lt_succ_self _⟩
    · obtain ⟨k, hk, hlt'⟩ := h.token hlo hlt
      exact ⟨k, hext.token? hk, hserial ▸ Nat.lt_succ_of_lt hlt'⟩
  case token_inj =>
    intro t u k hlo ht hlo' hu hkt hku
    -- the serial of the new token is larger than all others
    have hunused : ∀ {w : TypeId}, old ≤ w.index ∧ w.index < v.size →
        v.token? w ≠ some ⟨v.nextSerial, true⟩ := fun hw e => by
      obtain ⟨k, hk, hlt'⟩ := h.token hw.1 hw.2
      rw [hk] at e
      obtain rfl := Option.some.inj e
      exact Nat.lt_irrefl _ hlt'
    have hinj : ∀ {t u : TypeId} {k : Token}, old ≤ t.index ∧ t.index < v.size →
        old ≤ u.index ∧ u.index < v.size → v.token? t = some k → v.token? u = some k → t = u :=
      fun ht hu => h.token_inj ht.1 ht.2 hu.1 hu.2
    have hsplit : ∀ {t : TypeId}, old ≤ t.index ∧ t.index < v'.size →
        t = v.next ∨ t ≠ v.next ∧ old ≤ t.index ∧ t.index < v.size := fun ht =>
      (hlive ht.2).imp_right fun hlt => ⟨hne hlt, ht.1, hlt⟩
    exact eq_of_token?_eq htoken hsplit hunused hinj ⟨hlo, ht⟩ ⟨hlo', hu⟩ hkt hku
  case writable =>
    intro t hlo ht
    rw [hobstacle]
    rcases hlive ht with rfl | hlt
    · exact if_pos rfl
    · rw [if_neg (hne hlt)]
      exact h.writable hlo hlt
  case shape =>
    intro t m ht
    rcases hold' ht with ⟨rfl, rfl⟩ | ⟨-, hnamed⟩
    · exact hshape
    · rcases h.shape hnamed with ⟨hparts, hbare⟩ | ⟨base, args, bn, ns, hm, happ⟩
      · exact .inl ⟨hext.parts? hparts, hbare⟩
      · exact .inr ⟨base, args, bn, ns, hm, happ.mono hext⟩

/-- A new type without parts is entered under a bare name. -/
theorem enter_plain (h : v.Canonical old) (hold : old ≤ v.size)
    (hext : v.Extends (v.enter n none)) (hfree : v.lookup? n = none)
    (hname : Primitive.nameOf n = n) (hbare : Bare n.toList) :
    (v.enter n none).Canonical old := by
  refine h.enter hold rfl hext hfree hname (.inl ⟨?_, hbare⟩) fun {row t} ht => ?_
  · exact (enter_parts? v n none v.next).trans (if_pos rfl)
  · obtain ⟨base, args, bn, ns, hrow, happ⟩ := h.found ht
    exact ⟨base, args, bn, ns, hrow.mono hext, happ.mono hext⟩

/-- A new parameterized type is entered under the name made of those of its parts. -/
theorem enter_applied (h : v.Canonical old) (hold : old ≤ v.size)
    (hext : v.Extends (v.enterApplied base args (appliedName bn ns) row))
    (hbase : v.Named base bn) (hargs : List.Forall₂ v.Named args ns) (hbare : Bare bn.toList)
    (hplain : '<' ∉ bn.toList) (hapart : Apart 0 (ns.map String.toList))
    (hrow : v.Row (base :: args) row) (hfind : v.find? row = none) :
    (v.enterApplied base args (appliedName bn ns) row).Canonical old ∧
      (v.enterApplied base args (appliedName bn ns) row).Applied v.next base args bn ns := by
  have hfree := h.lookup?_appliedName hbase hargs hplain hapart hrow hfind
  have happ :
      (v.enterApplied base args (appliedName bn ns) row).Applied v.next base args bn ns := by
    refine ⟨?_, hbase.mono hext, hargs.imp fun _ _ ht => ht.mono hext, ⟨?_, ?_⟩, hbare, hplain,
      hapart, row, hrow.mono hext, ?_⟩
    · exact (enter_parts? v (appliedName bn ns) _ v.next).trans (if_pos rfl)
    · exact (enter_name? v _ _ v.next).trans (if_pos rfl)
    · exact (enter_lookup? v _ _ (appliedName bn ns)).trans (if_pos rfl)
    · rw [enterApplied_find?, if_pos rfl]
  have hname := Primitive.nameOf_of_mem (by decide) (mem_appliedName bn ns)
  refine ⟨h.enter hold rfl hext hfree hname (.inr ⟨base, args, bn, ns, rfl, happ⟩)
    fun {row' t} ht => ?_, happ⟩
  rw [enterApplied_find?] at ht
  split at ht
  · next hrow' =>
      obtain rfl := Option.some.inj ht
      exact ⟨base, args, bn, ns, hrow' ▸ hrow.mono hext, happ⟩
  · obtain ⟨base', args', bn', ns', hrow', happ'⟩ := h.found ht
    exact ⟨base', args', bn', ns', hrow'.mono hext, happ'.mono hext⟩

end Canonical

end View

end Nominal
