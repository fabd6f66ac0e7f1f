import RealtimeChat.Async.Discipline
import RealtimeChat.Handlers.Footprint
import RealtimeChat.Model.Effects

/-! Who is a member of which conversation.

Members are fixed when a conversation is created and no conversation is ever
deleted: once a member, always a member, whatever the server does. What a handler
has found out about memberships before an `await` therefore still holds after it. -/
namespace RealtimeChat
open Data (Text)
open Zod (Value)
open Async Async.System

def IsMember (conversationId userId : ObjectId) (s : Server) : Prop :=
  ∃ c ∈ s.conversations.docs, c.id = conversationId ∧ userId ∈ c.members

/-- The value denotes a conversation that the user is a member of. -/
def MemberBy (D : Deployment) (id : Value) (userId : ObjectId) (s : Server) : Prop :=
  ∃ conversationId, D.cast id = some conversationId ∧ IsMember conversationId userId s

/-- Everyone who was a member still is. -/
def MembersStay (s s' : Server) : Prop :=
  ∀ conversationId userId, IsMember conversationId userId s → IsMember conversationId userId s'

theorem MembersStay.refl (s : Server) : MembersStay s s := fun _ _ h => h

theorem MembersStay.trans {a b c : Server} (h : MembersStay a b) (h' : MembersStay b c) :
    MembersStay a c := fun conversationId userId hm =>
  h' conversationId userId (h conversationId userId hm)

theorem MembersStay.of_conversations {s s' : Server} (h : s'.conversations = s.conversations) :
    MembersStay s s' := by
  intro conversationId userId h'
  obtain ⟨c, hc, hid, hm⟩ := h'
  exact ⟨c, h ▸ hc, hid, hm⟩

section
variable {D : Deployment}

theorem MembersStay.answer (q : Query) (s : Server) : MembersStay s (Server.answer D q s).2 := by
  intro conversationId userId h
  obtain ⟨c, hc, rfl, hm⟩ := h
  obtain ⟨c', hc', hsame⟩ := (Server.answer_conversations D q s).persists hc
  exact ⟨c', hc', hsame.id, hsame.members ▸ hm⟩

theorem MemberBy.stays {id : Value} {userId : ObjectId} {s s' : Server}
    (h : MemberBy D id userId s) (hs : MembersStay s s') : MemberBy D id userId s' := by
  obtain ⟨c, hcast, hm⟩ := h
  exact ⟨c, hcast, hs c userId hm⟩

/-! ### What the queries say of it -/

theorem findOne_isSome {id userId : ObjectId} {s : Server} :
    (s.findOne id userId).isSome = true ↔ IsMember id userId s := by
  simp only [Server.findOne, Option.isSome_filter, Option.any_eq_true, List.contains_iff_mem]
  constructor
  · intro h
    obtain ⟨c, hc, hm⟩ := h
    obtain ⟨hmem, hid⟩ := Data.Collection.find_eq_some.mp hc
    exact ⟨c, hmem, hid, hm⟩
  · intro h
    obtain ⟨c, hmem, hid, hm⟩ := h
    exact ⟨c, Data.Collection.find_eq_some.mpr ⟨hmem, hid⟩, hm⟩

theorem findOne_answer {id : Value} {userId : ObjectId} {s : Server} {found : Option Conversation}
    (h : (Server.answer D (.conversationFindOne id userId) s).1 = .ok found) :
    found.isSome = true ↔ MemberBy D id userId s := by
  simp only [Server.answer, Server.casting] at h
  split at h
  · rename_i c hcast
    obtain rfl := Except.ok.inj h
    rw [findOne_isSome]
    constructor
    · exact fun hm => ⟨c, hcast, hm⟩
    · intro hby
      obtain ⟨c', hcast', hm⟩ := hby
      rw [Option.some.inj (hcast.symm.trans hcast')]
      exact hm
  · cases h

theorem conversationIds_answer {userId : ObjectId} {s : Server} {ids : List ObjectId}
    (h : (Server.answer D (.conversationIds userId) s).1 = .ok ids) (id : ObjectId) :
    id ∈ ids ↔ IsMember id userId s := by
  obtain rfl := Except.ok.inj h
  simp only [List.mem_map, List.mem_filter, List.contains_iff_mem, IsMember]
  constructor
  · intro h'
    obtain ⟨c, ⟨hc, hm⟩, rfl⟩ := h'
    exact ⟨c, hc, rfl, hm⟩
  · intro h'
    obtain ⟨c, hc, rfl, hm⟩ := h'
    exact ⟨c, ⟨hc, hm⟩, rfl⟩

/-! ### What a membership check is worth after it -/

section
variable {F : Discipline chatInterface Server Failure Call} {pid : Nat}

/-- Under any discipline that keeps members and allows reading, a check that said yes
still holds when its caller goes on. -/
theorem isConversationMember_member (hrel : ∀ {w w'}, F.rel w w' → MembersStay w.state w'.state)
    (hanswer : ∀ pid q w, Server.Reads q → F.inv w → F.Keeps w ((chat D).respond pid q w))
    (hreject : ∀ pid q w, F.inv w → F.Keeps w ((chat D).reject pid q w)) (id : Value)
    (userId : ObjectId) {b w : World chatInterface Server Failure Call} (hk : F.Keeps b w) :
    (chat D).Safe F pid (fun r b w => F.Keeps b w ∧
      (r = .ok true → MemberBy D id userId w.state)) (isConversationMember D id userId) b w := by
  unfold isConversationMember
  split
  · exact ⟨hk, nofun⟩
  · refine (safe_bind _ _ _ _ _).mpr (Safe.of_query hk ?_ ?_ ?_ ?_)
    · exact fun w₁ hw₁ _ => hanswer pid _ w₁ trivial hw₁.inv
    · exact fun w₁ hw₁ _ => hreject pid _ w₁ hw₁.inv
    · intro found w₁ w₂ _ hfound hstep hw₂
      refine ⟨.refl hw₂.inv, fun htrue => ?_⟩
      have hmember := (findOne_answer hfound).mp (Except.ok.inj htrue)
      exact (hmember.stays (hrel hstep.rel)).stays (hrel hw₂.rel)
    · exact fun e w₁ w₂ _ h => ⟨.refl h.keeps.inv, nofun⟩

end

end

end RealtimeChat
