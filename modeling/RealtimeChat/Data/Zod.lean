import RealtimeChat.Data.Text

/-! Values a client can send, and schemas that check them.

A `Value` is what a decoded packet or request body can hold, with the callback
that a packet with an acknowledgement ends in. A `Schema` reads a value and
collects issues: a value may be kept and yet be marked (`errors` is not empty),
or be given up (`value` is `none`). `parse` accepts what has no issue. -/
namespace Zod
open Data (Text trim)

inductive Value where
  | undefined
  | null
  | boolean (b : Bool)
  | number (n : Int)
  | string (s : Text)
  | bytes (length : Nat)
  | array (items : List Value)
  | object (fields : List (String × Value))
  | function

namespace Value

/-- `v[name]`, for a value that has fields. -/
def get (v : Value) (name : String) : Value :=
  match v with
  | .object fields => (fields.lookup name).getD .undefined
  | _ => .undefined

/-- The type name in Zod's messages. -/
def typeName : Value → String
  | .undefined => "undefined"
  | .null => "null"
  | .boolean _ => "boolean"
  | .number _ => "number"
  | .string _ => "string"
  | .bytes _ => "object"
  | .array _ => "array"
  | .object _ => "object"
  | .function => "function"

def isNullish : Value → Bool
  | .undefined => true
  | .null => true
  | _ => false

mutual

/-- Whether a template literal can print the value: it throws on an object whose
own `toString` hides the inherited one, since no decoded field is callable. -/
def printable : Value → Bool
  | .array items => printableAll items
  | .object fields => (fields.lookup "toString").isNone
  | _ => true

def printableAll : List Value → Bool
  | [] => true
  | v :: rest => v.printable && printableAll rest

end

end Value

structure Issue where
  path : List String
  message : String

/-- What a schema makes of a value: no value where it gives up, and a value with
issues where it merely marks it. -/
structure Parsed (α : Type) where
  value : Option α
  errors : List Issue

variable {α β γ : Type}

namespace Parsed

def map (f : α → β) (p : Parsed α) : Parsed β := ⟨p.value.map f, p.errors⟩

/-- Both readings, the issues of the first before those of the second. -/
def both (p : Parsed α) (q : Parsed β) : Parsed (α × β) :=
  ⟨p.value.bind fun a => q.value.map fun b => (a, b), p.errors ++ q.errors⟩

def under (name : String) (p : Parsed α) : Parsed α :=
  ⟨p.value, p.errors.map fun e => ⟨name :: e.path, e.message⟩⟩

def result (p : Parsed α) : Except (List Issue) α :=
  match p.value, p.errors with
  | some v, [] => .ok v
  | _, errors => .error errors

end Parsed

abbrev Schema (α : Type) := Value → Parsed α

def invalidType (expected : String) (v : Value) : Issue :=
  ⟨[], match v with
    | .undefined => "Required"
    | v => "Expected " ++ expected ++ ", received " ++ v.typeName⟩

namespace Schema

/-- `z.string()` -/
def string : Schema Text
  | .string s => ⟨some s, []⟩
  | v => ⟨none, [invalidType "string" v]⟩

/-- `schema.refine(p, { message })`, and the length checks: the value stays. -/
def refine (s : Schema α) (p : α → Bool) (message : String) (path : List String := []) :
    Schema α := fun v =>
  match s v with
  | ⟨some a, errors⟩ => ⟨some a, if p a then errors else errors ++ [⟨path, message⟩]⟩
  | parsed => parsed

/-- `z.string().trim()` -/
def trimmed (s : Schema Text) : Schema Text := fun v => (s v).map trim

/-- `schema.transform(f)`: a marked value is passed on as it is. -/
def transform (s : Schema α) (f : α → α) : Schema α := fun v =>
  match s v with
  | ⟨some a, []⟩ => ⟨some (f a), []⟩
  | parsed => parsed

/-- `schema.optional()` -/
def optional (s : Schema α) : Schema (Option α)
  | .undefined => ⟨some none, []⟩
  | v => (s v).map some

/-- `schema.default(value)` -/
def orDefault (s : Schema α) (value : Value) : Schema α
  | .undefined => s value
  | v => s v

/-- `z.object({ .. })`, its fields read by `fields`. -/
def object (fields : Value → Parsed α) : Schema α
  | .object o => fields (.object o)
  | .bytes n => fields (.bytes n)
  | v => ⟨none, [invalidType "object" v]⟩

def field (name : String) (s : Schema α) : Value → Parsed α := fun v => (s (v.get name)).under name

/-- `z.array(schema)` -/
def array (s : Schema α) : Schema (List α)
  | .array items => go 0 items
  | v => ⟨none, [invalidType "array" v]⟩
where
  go (i : Nat) : List Value → Parsed (List α)
    | [] => ⟨some [], []⟩
    | v :: rest => ((s v).under (toString i)).both (go (i + 1) rest) |>.map fun (a, as) => a :: as

/-- `z.enum([..])`, given the values with their names. -/
def enum (values : List (Text × α)) (expected : String) : Schema α
  | .string s =>
    match values.lookup s with
    | some a => ⟨some a, []⟩
    | none => ⟨none, [⟨[], "Invalid enum value. Expected " ++ expected ++ ", received '" ++
        String.ofList s ++ "'"⟩]⟩
  | v => ⟨none, [invalidType expected v]⟩

/-- `schema.parse(v)`; also `schema.safeParse(v)`. -/
def parse (s : Schema α) (v : Value) : Except (List Issue) α := (s v).result

/-! ### What is accepted -/

section
variable {s : Schema α} {v : Value} {a : α}

theorem parse_eq_ok : s.parse v = .ok a ↔ s v = ⟨some a, []⟩ := by
  unfold parse Parsed.result
  rcases s v with ⟨_ | a', _ | ⟨e, errors⟩⟩ <;> simp

theorem map_eq_ok {p : Parsed α} {f : α → β} {b : β} :
    p.map f = ⟨some b, []⟩ ↔ ∃ a, p = ⟨some a, []⟩ ∧ f a = b := by
  rcases p with ⟨_ | a, errors⟩ <;> simp [Parsed.map, and_comm]

theorem optional_eq_ok (h : s.optional v = ⟨some (some a), []⟩) : s v = ⟨some a, []⟩ := by
  cases v with
  | undefined => cases h
  | _ =>
    obtain ⟨read, hread, heq⟩ := map_eq_ok.mp h
    exact Option.some.inj heq ▸ hread

theorem orDefault_eq_ok {value : Value} (h : s.orDefault value v = ⟨some a, []⟩) :
    ∃ v, s v = ⟨some a, []⟩ := by
  cases v with
  | undefined => exact ⟨value, h⟩
  | _ => exact ⟨_, h⟩

theorem under_eq_ok {p : Parsed α} {name : String} :
    p.under name = ⟨some a, []⟩ ↔ p = ⟨some a, []⟩ := by
  rcases p with ⟨_ | a, errors⟩ <;> simp [Parsed.under]

theorem both_eq_ok {p : Parsed α} {q : Parsed β} {ab : α × β} :
    p.both q = ⟨some ab, []⟩ ↔ p = ⟨some ab.1, []⟩ ∧ q = ⟨some ab.2, []⟩ := by
  rcases p with ⟨_ | a, errors⟩ <;> rcases q with ⟨_ | b, errors'⟩ <;>
    simp [Parsed.both, Prod.ext_iff, and_assoc, and_left_comm]

/-- What an object is read as was read off its fields. -/
theorem object_eq_ok {fields : Value → Parsed α} (h : object fields v = ⟨some a, []⟩) :
    fields v = ⟨some a, []⟩ := by
  cases v with
  | object o => exact h
  | bytes n => exact h
  | _ => cases h

theorem refine_eq_ok {p : α → Bool} {message : String} {path : List String} :
    s.refine p message path v = ⟨some a, []⟩ ↔ s v = ⟨some a, []⟩ ∧ p a = true := by
  unfold refine
  rcases s v with ⟨_ | a', errors⟩
  · simp
  · by_cases h : p a' = true
    · simp only [h, if_true, Parsed.mk.injEq, Option.some.injEq]
      exact ⟨fun he => ⟨he, he.1 ▸ h⟩, fun he => he.1⟩
    · constructor
      · intro he
        have hlist := congrArg Parsed.errors he
        simp only [h] at hlist
        exact absurd hlist (by simp)
      · intro h'
        obtain ⟨he, hp⟩ := h'
        cases he
        exact absurd hp h

/-- Each item of what an array is read as was read off one of the array's. -/
theorem array_eq_ok {as : List α} (h : s.array v = ⟨some as, []⟩) :
    ∀ a ∈ as, ∃ v, s v = ⟨some a, []⟩ := by
  cases v with
  | array items =>
    have hgo : ∀ i, array.go s i items = ⟨some as, []⟩ → ∀ a ∈ as, ∃ v, s v = ⟨some a, []⟩ := by
      clear h
      induction items generalizing as with
      | nil =>
        intro i h a ha
        obtain rfl := Option.some.inj (congrArg Parsed.value h)
        cases ha
      | cons v rest ih =>
        intro i h a ha
        obtain ⟨⟨a', as'⟩, hboth, rfl⟩ := map_eq_ok.mp h
        obtain ⟨hv, hrest⟩ := both_eq_ok.mp hboth
        rcases List.mem_cons.mp ha with rfl | ha
        · exact ⟨v, under_eq_ok.mp hv⟩
        · exact ih (i + 1) hrest a ha
    exact hgo 0 h
  | _ => cases h

theorem transform_eq_ok {f : α → α} :
    s.transform f v = ⟨some a, []⟩ ↔ ∃ b, s v = ⟨some b, []⟩ ∧ f b = a := by
  unfold transform
  rcases s v with ⟨_ | b, _ | ⟨e, errors⟩⟩ <;> simp

end

end Schema

end Zod
