import RealtimeChat.Data.Spans
import RealtimeChat.Model.Events

/-! The request schemas (`src/validators/`) and the sanitizer they use
(`src/utils/sanitize.ts`). -/
namespace RealtimeChat
open Data (Text isSpace trim utf16Length trim_sublist trim_trim utf16Length_sublist)
open Zod (Value Schema Parsed Issue)

/-- `text.replace(/<[^>]*>/g, '')`: from a `<` on, characters are held back; the next
`>` drops them, and the end of the text lets them through. -/
def removeTags : Option Text → Text → Text
  | none, [] => []
  | some held, [] => held.reverse
  | none, c :: rest => if c = '<' then removeTags (some [c]) rest else c :: removeTags none rest
  | some held, c :: rest =>
    if c = '>' then removeTags none rest else removeTags (some (c :: held)) rest

def stripHtmlTags (text : Text) : Text := trim (removeTags none text)

def objectId : Schema Text := Schema.string.refine ObjectId.isValid "Invalid ObjectId"

def messageText : Schema Text :=
  (Schema.string.trimmed.refine (fun s => utf16Length s ≤ 5000)
    "Message text cannot exceed 5000 characters").transform stripHtmlTags
    |>.refine (fun s => 1 ≤ utf16Length s) "Message text cannot be empty"

structure SendMessageInput where
  conversationId : Text
  text : Text

def sendMessageSchema : Schema SendMessageInput :=
  Schema.object fun v => ((Schema.field "conversationId" objectId v).both
    (Schema.field "text" messageText v)).map fun (conversationId, text) => ⟨conversationId, text⟩

structure MessageDeliveredInput where
  messageId : Text

def messageDeliveredSchema : Schema MessageDeliveredInput :=
  Schema.object fun v => (Schema.field "messageId" objectId v).map fun messageId => ⟨messageId⟩

structure MessageReadInput where
  conversationId : Text
  upToMessageId : Text

def messageReadSchema : Schema MessageReadInput :=
  Schema.object fun v => ((Schema.field "conversationId" objectId v).both
    (Schema.field "upToMessageId" objectId v)).map fun (conversationId, upToMessageId) =>
      ⟨conversationId, upToMessageId⟩

structure TypingInput where
  conversationId : Text

def typingSchema : Schema TypingInput :=
  Schema.object fun v => (Schema.field "conversationId" objectId v).map fun conversationId =>
    ⟨conversationId⟩

structure CreateConversationInput where
  type : ConversationType
  name : Option Text
  members : List Text

def conversationType : Schema ConversationType :=
  Schema.enum [("1:1".toList, .oneToOne), ("group".toList, .group)] "'1:1' | 'group'"

def conversationName : Schema (Option Text) :=
  ((Schema.string.trimmed.refine (fun s => 1 ≤ utf16Length s)
    "String must contain at least 1 character(s)").refine (fun s => utf16Length s ≤ 100)
    "String must contain at most 100 character(s)").optional

def createConversationSchema : Schema CreateConversationInput :=
  ((Schema.object fun v => ((Schema.field "type" conversationType v).both
      ((Schema.field "name" conversationName v).both
        (Schema.field "members" ((Schema.array objectId).refine (fun l => 1 ≤ l.length)
          "Array must contain at least 1 element(s)") v))).map
      fun (type, name, members) => ⟨type, name, members⟩).refine
    (fun data => data.type = .group || data.members.length == 1)
    "1:1 conversations must have exactly one other member" ["members"]).refine
    (fun data => data.type != .group || data.name.any fun s => !s.isEmpty)
    "Group conversations require a name" ["name"]

/-- The query string of a history request. The limit is a whole number already: that it is read
from a text, that one is refused which gives none, and the default of 20 are left out. -/
structure PaginationQuery where
  limit : Int
  before : Option Text

/-- `z.string().datetime()`: four digits for the year, and a `Z`; seconds may be left out. -/
def isDatetime (s : Text) : Bool := s.head?.any Char.isDigit && (IsoDate.read s).isSome

def paginationQuerySchema (q : PaginationQuery) : List Issue :=
  (if q.limit < 1 then [⟨["limit"], "Number must be greater than or equal to 1"⟩] else []) ++
  (if 100 < q.limit then [⟨["limit"], "Number must be less than or equal to 100"⟩] else []) ++
  (if q.before.all isDatetime then [] else [⟨["before"], "Invalid datetime"⟩])

/-! ### What an accepted payload holds -/

theorem objectId_isValid {v : Value} {s : Text} (h : objectId v = ⟨some s, []⟩) :
    v = .string s ∧ ObjectId.isValid s = true := by
  cases v <;> simp [objectId, Schema.refine, Schema.string] at h
  obtain ⟨rfl, h⟩ := h
  exact ⟨rfl, h⟩

theorem field_isValid {v : Value} {name : String} {s : Text}
    (h : Schema.field name objectId v = ⟨some s, []⟩) : ObjectId.isValid s = true :=
  (objectId_isValid (Schema.under_eq_ok.mp h)).2

theorem typing_isValid {payload : Value} {input : TypingInput}
    (h : typingSchema.parse payload = .ok input) : ObjectId.isValid input.conversationId = true := by
  obtain ⟨s, hs, rfl⟩ := Schema.map_eq_ok.mp (Schema.object_eq_ok (Schema.parse_eq_ok.mp h))
  exact field_isValid hs

theorem sendMessage_isValid {payload : Value} {input : SendMessageInput}
    (h : sendMessageSchema.parse payload = .ok input) :
    ObjectId.isValid input.conversationId = true := by
  obtain ⟨s, hs, rfl⟩ := Schema.map_eq_ok.mp (Schema.object_eq_ok (Schema.parse_eq_ok.mp h))
  exact field_isValid (Schema.both_eq_ok.mp hs).1

/-- A 1:1 request that is accepted names one other member. -/
theorem createConversation_oneToOne {body : Value} {input : CreateConversationInput}
    (h : createConversationSchema.parse body = .ok input) (ht : input.type = .oneToOne) :
    ∃ m, input.members = [m] := by
  obtain ⟨h, _⟩ := Schema.refine_eq_ok.mp (Schema.parse_eq_ok.mp h)
  have hlength := (Schema.refine_eq_ok.mp h).2
  rw [ht] at hlength
  exact List.length_eq_one_iff.mp (by simpa using hlength)

theorem createConversation_isValid {body : Value} {input : CreateConversationInput}
    (h : createConversationSchema.parse body = .ok input) :
    ∀ m ∈ input.members, ObjectId.isValid m = true := by
  obtain ⟨h, -⟩ := Schema.refine_eq_ok.mp (Schema.parse_eq_ok.mp h)
  obtain ⟨fields, hfields, rfl⟩ := Schema.map_eq_ok.mp (Schema.object_eq_ok (Schema.refine_eq_ok.mp h).1)
  have hmembers := Schema.under_eq_ok.mp (Schema.both_eq_ok.mp (Schema.both_eq_ok.mp hfields).2).2
  intro m hm
  obtain ⟨v, hv⟩ := Schema.array_eq_ok (Schema.refine_eq_ok.mp hmembers).1 m hm
  exact (objectId_isValid hv).2

/-! ### What the sanitizer leaves -/

/-- A `<` is followed later by a `>`. -/
def HasTag (text : Text) : Prop := ['<', '>'].Sublist text

instance : DecidablePred HasTag := fun text => inferInstanceAs (Decidable (['<', '>'].Sublist text))

/-- What a stored message's text is: trimmed, not empty, within the limit and without tags. -/
structure CleanText (text : Text) : Prop where
  nonempty : text ≠ []
  trimmed : trim text = text
  short : utf16Length text ≤ 5000
  untagged : ¬ HasTag text

theorem removeTags_eq_scan (held : Option Text) (s : Text) :
    removeTags held s = Data.Spans.scan '<' '>' held s := by
  induction s generalizing held with
  | nil => cases held <;> rfl
  | cons c rest ih => cases held <;> simp only [removeTags, Data.Spans.scan, ih]

theorem stripHtmlTags_eq_strip (s : Text) : stripHtmlTags s = Data.Spans.strip '<' '>' isSpace s := by
  rw [stripHtmlTags, removeTags_eq_scan]
  rfl

/-- No tag is left, and no character is added. -/
theorem removeTags_spec (s : Text) :
    ¬ HasTag (removeTags none s) ∧ (removeTags none s).Sublist s := by
  rw [removeTags_eq_scan]
  exact ⟨Data.Spans.not_hasSpan_remove s, Data.Spans.remove_sublist s⟩

theorem sendMessage_clean {payload : Value} {input : SendMessageInput}
    (h : sendMessageSchema.parse payload = .ok input) : CleanText input.text := by
  obtain ⟨⟨_, text⟩, hfields, rfl⟩ :=
    Schema.map_eq_ok.mp (Schema.object_eq_ok (Schema.parse_eq_ok.mp h))
  have htext := Schema.under_eq_ok.mp (Schema.both_eq_ok.mp hfields).2
  obtain ⟨hread, hnonempty⟩ := Schema.refine_eq_ok.mp htext
  obtain ⟨s, hs, rfl⟩ := Schema.transform_eq_ok.mp hread
  obtain ⟨htrimmed, hshort⟩ := Schema.refine_eq_ok.mp hs
  obtain ⟨htag, hless⟩ := removeTags_spec s
  have hsub : (stripHtmlTags s).Sublist (removeTags none s) := trim_sublist _
  show CleanText (stripHtmlTags s)
  refine ⟨fun hempty => ?_, trim_trim _, ?_, fun h => htag (h.trans hsub)⟩
  · rw [hempty] at hnonempty
    simp [utf16Length] at hnonempty
  · have hlimit : utf16Length s ≤ 5000 := by simpa using hshort
    exact Nat.le_trans (utf16Length_sublist (hsub.trans hless)) hlimit

/-- The text of an accepted message, once Mongoose has trimmed it. -/
theorem sendMessage_text {payload : Value} {input : SendMessageInput}
    (h : sendMessageSchema.parse payload = .ok input) : CleanText (trim input.text) := by
  rw [(sendMessage_clean h).trimmed]
  exact sendMessage_clean h

end RealtimeChat
