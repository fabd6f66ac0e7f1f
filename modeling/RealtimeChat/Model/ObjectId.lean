import RealtimeChat.Data.Text

/-! Object ids and their spellings.

An `ObjectId` is kept as the text that `toString` prints: 24 hexadecimal digits,
letters in lower case. Clients may spell the letters in either case; `isValid`
accepts every such spelling, and `cast` reads it as the id it denotes. -/
namespace RealtimeChat
open Data (Text)

def hexDigits : List Char := "0123456789abcdefABCDEF".toList

def lowerHexDigits : List Char := "0123456789abcdef".toList

/-- The lower-case spelling of a hexadecimal digit. -/
def lowerHex (c : Char) : Char :=
  match c with
  | 'A' => 'a'
  | 'B' => 'b'
  | 'C' => 'c'
  | 'D' => 'd'
  | 'E' => 'e'
  | 'F' => 'f'
  | c => c

structure ObjectId where
  digits : Text
  length : digits.length = 24
  lower : ∀ c ∈ digits, c ∈ lowerHexDigits
deriving DecidableEq

namespace ObjectId

/-- `Types.ObjectId.isValid` on a string. -/
def isValid (s : Text) : Bool := s.length == 24 && s.all fun c => hexDigits.contains c

theorem lowerHex_mem {c : Char} (h : c ∈ hexDigits) : lowerHex c ∈ lowerHexDigits := by
  have hall : hexDigits.all (fun c => lowerHexDigits.contains (lowerHex c)) = true := by decide
  exact List.contains_iff_mem.mp (List.all_eq_true.mp hall c h)

theorem lowerHex_of_mem {c : Char} (h : c ∈ lowerHexDigits) : lowerHex c = c ∧ c ∈ hexDigits := by
  have hall : lowerHexDigits.all (fun c => lowerHex c == c && hexDigits.contains c) = true := by
    decide
  simpa using List.all_eq_true.mp hall c h

/-- The id that a string denotes, as Mongoose casts it. -/
def cast (s : Text) : Option ObjectId :=
  if h : isValid s = true then
    some
      { digits := s.map lowerHex
        length := by
          simp only [isValid, Bool.and_eq_true, beq_iff_eq] at h
          simp [h.1]
        lower := by
          simp only [isValid, Bool.and_eq_true, List.all_eq_true, List.contains_iff_mem] at h
          intro c hc
          obtain ⟨d, hd, rfl⟩ := List.mem_map.mp hc
          exact lowerHex_mem (h.2 d hd) }
  else none

/-- `id.toString()` -/
def toString (o : ObjectId) : Text := o.digits

theorem isValid_toString (o : ObjectId) : isValid o.toString = true := by
  simp only [isValid, toString, o.length, Bool.and_eq_true, List.all_eq_true, beq_self_eq_true,
    List.contains_iff_mem, true_and]
  exact fun c hc => (lowerHex_of_mem (o.lower c hc)).2

/-- An id's own text denotes it. -/
@[simp] theorem cast_toString (o : ObjectId) : cast o.toString = some o := by
  have hmap : o.toString.map lowerHex = o.digits := by
    refine (List.map_congr_left fun c hc => (lowerHex_of_mem (o.lower c hc)).1).trans ?_
    exact List.map_id _
  simp only [cast, isValid_toString, dite_true, hmap]

theorem isSome_cast (s : Text) : (cast s).isSome = isValid s := by
  unfold cast
  split <;> simp_all

theorem isValid_of_cast {s : Text} {o : ObjectId} (h : cast s = some o) : isValid s = true := by
  rw [← isSome_cast, h]
  rfl

/-- The ids of spellings that are all well formed. -/
theorem mem_mapM_cast {spellings : List Text} {ids : List ObjectId}
    (h : spellings.mapM cast = some ids) {id : ObjectId} :
    id ∈ ids ↔ ∃ spelling ∈ spellings, cast spelling = some id := by
  induction spellings generalizing ids with
  | nil =>
    obtain rfl : [] = ids := Option.some.inj h
    simp
  | cons s rest ih =>
    rw [List.mapM_cons] at h
    cases hs : cast s with
    | none => simp [hs] at h
    | some o =>
      cases hrest : rest.mapM cast with
      | none => simp [hs, hrest] at h
      | some os =>
        obtain rfl : o :: os = ids := by simpa [hs, hrest] using h
        simp only [List.mem_cons, ih hrest, exists_eq_or_imp, hs, Option.some.injEq]
        exact or_congr_left eq_comm

theorem not_isValid_of_cast {s : Text} (h : cast s = none) : isValid s = false := by
  rw [← isSome_cast, h]
  rfl

/-- The id whose only digit other than zero is its last. -/
def ending (d : Nat) : ObjectId where
  digits := List.replicate 23 '0' ++ [lowerHexDigits.getD d '0']
  length := by simp
  lower := by
    intro c hc
    rcases List.mem_append.mp hc with hc | hc
    · rw [List.eq_of_mem_replicate hc]
      decide
    · rw [List.mem_singleton.mp hc, List.getD_eq_getElem?_getD]
      cases hd : lowerHexDigits[d]? with
      | none => decide
      | some digit => exact List.mem_of_getElem? hd

/-- The id `ending 10`, spelled in capitals. -/
def capitals : Text := List.replicate 23 '0' ++ ['A']

end ObjectId

/-- The id of a connection: 20 characters, so never the text of an object id. -/
structure SocketId where
  text : Text
  length : text.length = 20
deriving DecidableEq

def SocketId.ofChar (c : Char) : SocketId := ⟨List.replicate 20 c, List.length_replicate⟩

theorem SocketId.isValid_text (s : SocketId) : ObjectId.isValid s.text = false := by
  simp [ObjectId.isValid, s.length]

end RealtimeChat
