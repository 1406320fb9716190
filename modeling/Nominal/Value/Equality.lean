import Nominal.Identity.Store
import Nominal.Value.Kind

/-!
# Equality of values

When two values are equal: scalars and containers by content, numbers by what they measure, types by
their tokens, and everything else by being the same object. Containers take a value to be equal to
itself. Main statement: `Magnitude.eq_comm` (equal measures are equal either way).
-/

namespace Nominal

/-! ### Numbers -/

/-- What a real number measures. -/
inductive Magnitude where
  /-- No number. -/
  | undefined
  /-- An infinity. -/
  | infinite (negative : Bool)
  /-- The number `m * 2 ^ q`. -/
  | finite (m q : Int)

namespace Magnitude

/-- What a double measures. -/
def ofBits (bits : UInt64) : Magnitude :=
  let negative := Decimal.isNegative bits
  if Decimal.isNaN bits then undefined
  else if Decimal.isInfinite bits then infinite negative
  else
    let field := Decimal.exponentOf bits
    let fraction := Decimal.fractionOf bits
    let m : Nat := if field = 0 then fraction else fraction + Decimal.leadingBit
    finite (if negative then -m else m) ((if field = 0 then 1 else field : Nat) - 1075)

/-- Two measures are equal; no number equals nothing. Numbers are compared over the smaller unit. -/
def eq : Magnitude → Magnitude → Bool
  | infinite a, infinite b => a = b
  | finite m q, finite n r =>
    let unit := min q r
    m * (Nat.pow 2 (q - unit).toNat : Nat) = n * (Nat.pow 2 (r - unit).toNat : Nat)
  | _, _ => false

/-- Equal measures are equal either way. -/
theorem eq_comm (a b : Magnitude) : eq a b = eq b a := by
  cases a <;> cases b <;> simp only [eq]
  · exact decide_eq_decide.2 ⟨Eq.symm, Eq.symm⟩
  · rw [Int.min_comm]
    exact decide_eq_decide.2 ⟨Eq.symm, Eq.symm⟩

end Magnitude

namespace Scalar

/-- The real and the imaginary part of a number. -/
def measures? : Scalar → Option (Magnitude × Magnitude)
  | truth b => some (.finite b.toNat 0, .finite 0 0)
  | whole n => some (.finite n 0, .finite 0 0)
  | real bits => some (.ofBits bits, .finite 0 0)
  | complex re im => some (.ofBits re, .ofBits im)
  | _ => none

/-- Two scalars are equal. -/
def equal (a b : Scalar) : Bool :=
  match a.measures?, b.measures? with
  | some (x, y), some (x', y') => x.eq x' && y.eq y'
  | none, none => a = b
  | _, _ => false

end Scalar

/-! ### Values -/

namespace Value

/-- The bytes that a row of bytes holds. -/
def bytes? : Value → Option (List UInt8)
  | scalar (.bytes bs) _ | buffer _ bs => some bs
  | _ => none

/-- The items of a set. -/
def setItems? : Value → Option (List Value)
  | set _ items | frozenSet _ items => some items
  | _ => none

/-- The number of steps of a progression. -/
def rangeLength (start stop step : Int) : Nat :=
  if 0 < step then ((stop - start + step - 1) / step).toNat
  else ((start - stop - step - 1) / -step).toNat

/-- Two progressions run through the same numbers. -/
def sameRange (start stop step start' stop' step' : Int) : Bool :=
  let n := rangeLength start stop step
  n = rangeLength start' stop' step' && (n = 0 || (start = start' && (n = 1 || step = step')))

end Value

/-- Numbers of a sort are compared by the sort of one of them: the wider one. -/
def Scalar.width? : Scalar → Option Nat
  | truth _ | whole _ => some 0
  | real _ => some 1
  | complex _ _ => some 2
  | _ => none

namespace Value

/-- The sort of a value decides whether it is equal to the other one. -/
def decides (v w : Value) : Bool :=
  match v.core, w.core with
  | scalar a _, scalar b _ => match a.width?, b.width? with
    | some m, some n => n ≤ m
    | _, _ => match a, b with
      | .text _, .text _ | .bytes _, .bytes _ => true
      | _, _ => false
  | buffer _ _, w => w.bytes?.isSome
  | list _ _, list _ _ | tuple _ _, tuple _ _ | mapping _ _, mapping _ _ | type _, type _ => true
  | set _ _, w | frozenSet _ _, w => w.setItems?.isSome
  | _, _ => false

end Value

section

variable (h : Heap) (s : Store)

/-- What one of two values says by an equality of its own: the first one, or the second one where
the first does not decide or the second is of a class derived from that of the first. -/
def Heap.verdict? (h : Heap) (v w : Value) : Option (Except Failure Bool) :=
  let c := h.classOf v
  let d := h.classOf w
  if h.derivesFrom d c && !d.same c then
    (h.ownEquality? w).orElse fun _ => h.ownEquality? v
  else
    (h.ownEquality? v).orElse fun _ => if v.decides w then none else h.ownEquality? w

/-- Two types are equal: they carry one token. -/
def typesEqual (t u : TypeId) : Except Failure Bool :=
  match s.compare? t u with
  | some b => .ok b
  | none => .error .missingAttribute

/-- Two values are equal if one of them says so by itself, or if neither says anything and `equal`
says so. -/
@[macro_inline]
def unlessVerdict (v w : Value) (equal : Except Failure Bool) : Except Failure Bool :=
  match h.verdict? v w with
  | some verdict => verdict
  | none => equal

/-- Values inside containers count as equal if they are the same object or if `equal` says so. -/
@[macro_inline]
def orSame (v w : Value) (equal : Except Failure Bool) : Except Failure Bool :=
  if v.same w then .ok true else equal

mutual

/-- Two values are equal by what they are and hold, unless one of them says so by itself. Fails
where types without tokens are compared. -/
def contentsEqual : Value → Value → Except Failure Bool
  | .scalar a c, w => match w.core with
    | .scalar b _ => .ok (a.equal b)
    | .buffer _ bs => .ok ((Value.scalar a c).bytes? = some bs)
    | _ => .ok false
  | .type t, w => match w with
    | .type u => typesEqual s t u
    | _ => .ok false
  | .derived o c content, w => match content with
    | .failure _ _ _ | .token _ => .ok ((Value.derived o c content).same w)
    | content => contentsEqual content w
  | .method o callee self, w => match w with
    | .method o' callee' self' =>
      if o = o' then .ok true
      else do
        let calleesEqual ← orSame callee callee'
          (unlessVerdict h callee callee' (contentsEqual callee callee'))
        return calleesEqual && self.same self'
    | _ => .ok false
  | .appender o self, w => match w with
    | .appender o' self' => .ok (o = o' || self.same self')
    | _ => .ok false
  | .list _ items, w => match w.core with
    | .list _ items' => if items.length = items'.length then itemsMatch items items' else .ok false
    | _ => .ok false
  | .tuple _ items, w => match w.core with
    | .tuple _ items' => itemsMatch items items'
    | _ => .ok false
  | .set _ items, w | .frozenSet _ items, w => match w.core.setItems? with
    | some items' => if items.length = items'.length then subset items items' else .ok false
    | none => .ok false
  | .mapping _ entries, w => match w.core with
    | .mapping _ entries' =>
      if entries.length = entries'.length then entriesMatch entries entries' else .ok false
    | _ => .ok false
  | .buffer _ bs, w => .ok (w.core.bytes? = some bs)
  | .range o start stop step, w => match w with
    | .range o' start' stop' step' =>
      .ok (o = o' || Value.sameRange start stop step start' stop' step')
    | _ => .ok false
  | v, w => .ok (v.same w)

/-- Two rows of values match item by item. -/
def itemsMatch : List Value → List Value → Except Failure Bool
  | [], [] => .ok true
  | v :: vs, w :: ws => do
    if ← orSame v w (unlessVerdict h v w (contentsEqual v w)) then itemsMatch vs ws
    else return false
  | _, _ => .ok false

/-- Every one of some values matches one of others. -/
def subset : List Value → List Value → Except Failure Bool
  | [], _ => .ok true
  | v :: vs, ws => do
    if ← ws.anyM (fun w => orSame v w (unlessVerdict h v w (contentsEqual v w))) then subset vs ws
    else return false

/-- Every entry matches an entry of another table. -/
def entriesMatch : List (Value × Value) → List (Value × Value) → Except Failure Bool
  | [], _ => .ok true
  | (k, v) :: rest, others => do
    match ← others.findM? fun (l, _) => orSame k l (unlessVerdict h k l (contentsEqual k l)) with
    | none => return false
    | some (_, v') =>
      if ← orSame v v' (unlessVerdict h v v' (contentsEqual v v')) then entriesMatch rest others
      else return false

end

/-- Two values are equal. -/
def valuesEqual (v w : Value) : Except Failure Bool :=
  unlessVerdict h v w (contentsEqual h s v w)

end

end Nominal
