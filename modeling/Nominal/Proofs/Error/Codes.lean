import Mathlib.Order.Nat
import Nominal.Error

/-!
# Codes in messages

The code of an error is read off its message, as the leftmost code in brackets, and a message can
quote any text, with any number of further codes. A report shows the message after a few words and
before the text at fault. Whatever these hold, the leftmost code of the report is the code that was
read off the message, or the one for unknown causes that the report puts before a message without
any.

## Main results

* `findCode?_eq_some_iff` and `findCode?_eq_none_iff`: what the search finds, and when it finds
  nothing.
* `firstToken_format`: the leftmost code of a report is the code of its message.
* `Error.code_report`: the code of an error is the one that its message was put together with.
-/

namespace Nominal

variable {cs ds code code' : List Char} {c : Char} {start start' : Nat}

/-! ### Codes in brackets -/

/-- A code: three capitals of ASCII, a hyphen and four decimal digits of any script. -/
def IsCode (cs : List Char) : Prop :=
  ∃ family number : List Char, cs = family ++ '-' :: number ∧ family.length = 3 ∧
    number.length = 4 ∧ (∀ c ∈ family, c.isUpper = true) ∧
    ∀ c ∈ number, Text.isDecimalDigit c = true

/-- A code in brackets. -/
def inBrackets (code : List Char) : List Char := '[' :: (code ++ [']'])

theorem IsCode.length_inBrackets (h : IsCode code) : (inBrackets code).length = 10 := by
  obtain ⟨family, number, rfl, hfamily, hnumber, -⟩ := h
  simp [inBrackets, hfamily, hnumber]

/-- What is read at the start of a text is a code that stands there in brackets. -/
theorem codeAt?_eq_some_iff : codeAt? cs = some code ↔ IsCode code ∧ inBrackets code <+: cs := by
  constructor
  · intro h
    unfold codeAt? at h
    split at h
    · next a b c i j k l rest =>
      split at h
      · next hchars =>
        obtain rfl := Option.some.inj h
        exact ⟨⟨[a, b, c], [i, j, k, l], rfl, rfl, rfl, List.all_eq_true.1 hchars.1,
          List.all_eq_true.1 hchars.2⟩, rest, rfl⟩
      · cases h
    · cases h
  · rintro ⟨⟨family, number, rfl, hfamily, hnumber, hupper, hdigit⟩, rest, rfl⟩
    match family, number, hfamily, hnumber with
    | [a, b, c], [i, j, k, l], _, _ =>
      exact if_pos ⟨List.all_eq_true.2 hupper, List.all_eq_true.2 hdigit⟩

/-- A code is what is read where it stands alone in brackets. -/
theorem isCode_iff : IsCode code ↔ codeAt? (inBrackets code) = some code := by
  rw [codeAt?_eq_some_iff]
  exact (and_iff_left List.prefix_rfl).symm

instance (code : List Char) : Decidable (IsCode code) := decidable_of_iff' _ isCode_iff

/-- A code stands in brackets at a place of a text. -/
structure TokenAt (cs code : List Char) (start : Nat) : Prop where
  /-- It is a code. -/
  isCode : IsCode code
  /-- It stands there. -/
  stands : inBrackets code <+: cs.drop start

/-- A code stands in brackets in a text, and no code does before it. -/
def FirstToken (cs code : List Char) : Prop :=
  ∃ start, TokenAt cs code start ∧ ∀ code' start', TokenAt cs code' start' → start ≤ start'

namespace TokenAt

theorem iff_codeAt? : TokenAt cs code start ↔ codeAt? (cs.drop start) = some code := by
  rw [codeAt?_eq_some_iff]
  exact ⟨fun h => ⟨h.isCode, h.stands⟩, fun h => ⟨h.1, h.2⟩⟩

/-- At one place stands one code. -/
theorem unique (h : TokenAt cs code start) (h' : TokenAt cs code' start) : code = code' :=
  Option.some.inj ((iff_codeAt?.1 h).symm.trans (iff_codeAt?.1 h'))

theorem add_le_length (h : TokenAt cs code start) : start + 10 ≤ cs.length := by
  have hle := h.stands.length_le
  rw [h.isCode.length_inBrackets, List.length_drop] at hle
  omega

theorem getElem? (h : TokenAt cs code start) : cs[start]? = some '[' := by
  obtain ⟨rest, hrest⟩ := h.stands
  rw [← List.head?_drop, ← hrest]
  rfl

/-- What stands before a text moves its codes. -/
theorem append_left_iff (before cs : List Char) :
    TokenAt (before ++ cs) code (before.length + start) ↔ TokenAt cs code start := by
  rw [iff_codeAt?, iff_codeAt?, List.drop_append, List.drop_eq_nil_of_le (Nat.le_add_right _ _),
    List.nil_append, Nat.add_sub_cancel_left]

/-- What stands after a text leaves its codes. -/
theorem append_right (h : TokenAt cs code start) (after : List Char) :
    TokenAt (cs ++ after) code start := by
  refine ⟨h.isCode, ?_⟩
  rw [List.drop_append_of_le_length (by have := h.add_le_length; omega)]
  exact h.stands.trans (List.prefix_append _ _)

/-- A code that ends in a text stands in it, whatever stands after it. -/
theorem of_append_right {after : List Char} (h : TokenAt (cs ++ after) code start)
    (hle : start + 10 ≤ cs.length) : TokenAt cs code start := by
  refine ⟨h.isCode, List.prefix_of_prefix_length_le h.stands ?_ ?_⟩
  · rw [List.drop_append_of_le_length (by omega)]
    exact List.prefix_append _ _
  · rw [h.isCode.length_inBrackets, List.length_drop]
    omega

end TokenAt

/-! ### The leftmost code -/

/-- The search finds the leftmost code. -/
theorem findCode?_eq_some_iff : findCode? cs = some code ↔ FirstToken cs code := by
  induction cs with
  | nil =>
    constructor
    · intro h
      cases h
    · rintro ⟨start, htoken, -⟩
      exact absurd htoken.add_le_length (by simp)
  | cons c cs ih =>
    rw [findCode?]
    cases hcode : codeAt? (c :: cs) with
    | some code' =>
      have hfirst : TokenAt (c :: cs) code' 0 := TokenAt.iff_codeAt?.2 hcode
      constructor
      · intro h
        obtain rfl := Option.some.inj h
        exact ⟨0, hfirst, fun _ _ _ => Nat.zero_le _⟩
      · rintro ⟨start, htoken, hleast⟩
        obtain rfl := Nat.le_zero.1 (hleast code' 0 hfirst)
        exact congrArg some (hfirst.unique htoken)
    | none =>
      -- no code stands at the first character, and behind it each stands one place further
      have hshift : ∀ {code start}, TokenAt (c :: cs) code start →
          ∃ n, start = 1 + n ∧ TokenAt cs code n := by
        intro code start h
        cases start with
        | zero => cases hcode.symm.trans (TokenAt.iff_codeAt?.1 h)
        | succ n => exact ⟨n, Nat.add_comm n 1, h.isCode, h.stands⟩
      rw [Option.orElse_none, ih]
      constructor
      · rintro ⟨start, htoken, hleast⟩
        refine ⟨1 + start, (TokenAt.append_left_iff [c] cs).2 htoken, fun code' start' h' => ?_⟩
        obtain ⟨n, rfl, hn⟩ := hshift h'
        exact Nat.add_le_add_left (hleast code' n hn) 1
      · rintro ⟨start, htoken, hleast⟩
        obtain ⟨n, rfl, hn⟩ := hshift htoken
        refine ⟨n, hn, fun code' start' h' => ?_⟩
        exact Nat.le_of_add_le_add_left
          (hleast code' (1 + start') ((TokenAt.append_left_iff [c] cs).2 h'))

/-- The search finds nothing exactly if no code stands in the text. -/
theorem findCode?_eq_none_iff : findCode? cs = none ↔ ∀ code start, ¬TokenAt cs code start := by
  constructor
  · intro hnone code start h
    classical
    -- among the places at which a code stands there is a first one
    have hex : ∃ start, ∃ code, TokenAt cs code start := ⟨start, code, h⟩
    obtain ⟨first, ⟨code', hfirst⟩, hleast⟩ := Nat.findX hex
    have hfind : findCode? cs = some code' := findCode?_eq_some_iff.2
      ⟨first, hfirst, fun code start h => Nat.le_of_not_lt fun hlt => hleast start hlt ⟨code, h⟩⟩
    cases hnone.symm.trans hfind
  · intro h
    refine Option.eq_none_iff_forall_ne_some.2 fun code hcode => ?_
    obtain ⟨start, htoken, -⟩ := findCode?_eq_some_iff.1 hcode
    exact h code start htoken

namespace FirstToken

/-- A code at the start of a text is the leftmost one. -/
theorem of_isCode (h : IsCode code) (after : List Char) :
    FirstToken (inBrackets code ++ after) code :=
  ⟨0, ⟨h, List.prefix_append _ _⟩, fun _ _ _ => Nat.zero_le _⟩

/-- What stands after a text with a code leaves its leftmost code: a code that starts before it ends
before it, and so in the text. -/
theorem append_right (h : FirstToken cs code) (after : List Char) :
    FirstToken (cs ++ after) code := by
  obtain ⟨start, htoken, hleast⟩ := h
  refine ⟨start, htoken.append_right after, fun code' start' h' => Nat.le_of_not_lt fun hlt => ?_⟩
  have hle := htoken.add_le_length
  exact absurd (hleast code' start' (h'.of_append_right (by omega))) (Nat.not_le_of_gt hlt)

/-- What stands before a text and has no opening bracket leaves its leftmost code. -/
theorem append_left {before : List Char} (hbefore : '[' ∉ before) (h : FirstToken cs code) :
    FirstToken (before ++ cs) code := by
  obtain ⟨start, htoken, hleast⟩ := h
  refine ⟨before.length + start, (TokenAt.append_left_iff before cs).2 htoken,
    fun code' start' h' => ?_⟩
  obtain ⟨n, rfl⟩ : ∃ n, start' = before.length + n := by
    refine Nat.exists_eq_add_of_le (Nat.le_of_not_lt fun hlt => hbefore ?_)
    have hget := h'.getElem?
    rw [List.getElem?_append_left hlt] at hget
    exact List.mem_of_getElem? hget
  exact Nat.add_le_add_left (hleast code' n ((TokenAt.append_left_iff before cs).1 h')) _

end FirstToken

/-! ### Reports -/

namespace Report

/-- The first line has the code of the message for its leftmost code. -/
theorem firstToken_header (r : Report) : FirstToken r.header.toList r.code.toList := by
  have hwords : '[' ∉ "error: ".toList := by decide
  rw [header, code]
  cases hcode : findCode? r.message.toList with
  | some code =>
    simp only [Option.map_some, Option.getD_some, String.toList_append, String.toList_ofList]
    exact (findCode?_eq_some_iff.1 hcode).append_left hwords
  | none =>
    have hunknown : IsCode unknownCode.toList := by decide
    have hheader : ("error: [" ++ unknownCode ++ "] " ++ r.message).toList =
        "error: ".toList ++ (inBrackets unknownCode.toList ++ ' ' :: r.message.toList) := by
      simp [inBrackets]
    simp only [Option.map_none, Option.getD_none, hheader]
    exact (FirstToken.of_isCode hunknown _).append_left hwords

/-- A report is its first line and what stands after it. -/
theorem exists_format_eq (r : Report) : ∃ after, r.format = r.header ++ after := by
  rw [format]
  split
  · exact ⟨"", by simp⟩
  · exact ⟨_, String.append_assoc ..⟩
  · exact ⟨_, by simp only [String.append_assoc]; rfl⟩

/-- The leftmost code of a report is the code of its message, whatever the message, the text at
fault and the column are. -/
theorem firstToken_format (r : Report) : FirstToken r.format.toList r.code.toList := by
  obtain ⟨after, hformat⟩ := r.exists_format_eq
  rw [hformat, String.toList_append]
  exact r.firstToken_header.append_right after.toList

end Report

/-! ### Errors -/

namespace Error

/-- The code of every error is in use. -/
theorem code_mem (e : Error) : e.code ∈ codeFamilies.flatMap Prod.snd := by
  cases e with
  | malformed fault =>
    have hcause : ∀ cause : Malformation, cause.code ∈ codeFamilies.flatMap Prod.snd := by
      intro cause
      cases cause <;> decide
    exact hcause fault.cause
  | _ =>
    rw [code]
    decide

theorem isCode_code (e : Error) : IsCode e.code.toList := by
  have hall : ∀ code ∈ codeFamilies.flatMap Prod.snd, IsCode code.toList := by decide
  exact hall e.code e.code_mem

@[simp] theorem message_report (e : Error) : e.report.message = e.message := by
  cases e <;> rfl

/-- The code that is read off the message of an error is its own, whatever the message quotes. -/
theorem code_report (e : Error) : e.report.code = e.code := by
  have hmessage : e.message.toList = inBrackets e.code.toList ++ ' ' :: e.wording.toList := by
    simp [message, inBrackets]
  have hfind : findCode? e.message.toList = some e.code.toList :=
    findCode?_eq_some_iff.2 (hmessage ▸ .of_isCode e.isCode_code _)
  rw [Report.code, message_report, hfind]
  exact String.ofList_toList

end Error

end Nominal
