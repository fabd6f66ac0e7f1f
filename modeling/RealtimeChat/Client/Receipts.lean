import RealtimeChat.Client.UseMessages
import RealtimeChat.Receipts.Confluence

/-! Receipts at a thread, in any order (`frontend-ui/src/hooks/useMessages.ts`).

Each of the two listeners joins a status onto the messages that its event names, so what
a list of receipts makes of a thread depends only on which receipts are in it
(`receipts_settle`). -/
namespace RealtimeChat
open Data (Text joinAll)

/-- The payload of `message:delivered` or of `message:read`. -/
inductive ReceiptEvent where
  | delivered (messageId : ObjectId) (conversationId : Text) (deliveredBy : ObjectId)
  | read (conversationId : Text) (messageIds : List ObjectId) (readBy : ObjectId)
deriving DecidableEq

/-- What the event joins onto the status of a message. -/
def ReceiptEvent.target (conversationId : Text) (id : ObjectId) : ReceiptEvent → MessageStatus
  | .delivered messageId c _ => if c = conversationId ∧ id = messageId then .delivered else .sent
  | .read c messageIds _ => if c = conversationId ∧ id ∈ messageIds then .read else .sent

namespace UseMessages

section
variable (conversationId : Text)

/-- The listener that the event comes to. -/
def onReceipt (s : UseMessages) : ReceiptEvent → UseMessages
  | .delivered messageId c _ => s.onDelivered conversationId messageId c
  | .read c messageIds _ => s.onRead conversationId c messageIds

def onReceipts (s : UseMessages) (events : List ReceiptEvent) : UseMessages :=
  events.foldl (onReceipt conversationId) s

/-- What receipts owe a thread. -/
structure Settles (s : UseMessages) (events : List ReceiptEvent) : Prop where
  /-- The same receipts, in another order or repeated, make the same thread. -/
  confluent : ∀ events', (∀ e, e ∈ events' ↔ e ∈ events) →
    s.onReceipts conversationId events' = s.onReceipts conversationId events
  forward : ∀ front, front <+: events → List.Forall₂ (fun m m' => m.status ≤ m'.status)
    (s.onReceipts conversationId front).messages (s.onReceipts conversationId events).messages
  unchanged : (s.onReceipts conversationId events).messages.map (fun m => {m with status := .sent}) =
    s.messages.map fun m => {m with status := .sent}
  others : ∃ messages, s.onReceipts conversationId events = {s with messages}

end

/-! ### Joins -/

section
variable {conversationId : Text} {s : UseMessages} {events front : List ReceiptEvent}

/-- Statuses joined onto those of the messages. -/
def joined (f : ObjectId → List MessageStatus) (s : UseMessages) : UseMessages :=
  {s with messages := s.messages.map fun m => {m with status := joinAll m.status (f m.id)}}

theorem joined_nil (s : UseMessages) : s.joined (fun _ => []) = s := by
  simp [joined]

theorem joined_joined (f g : ObjectId → List MessageStatus) (s : UseMessages) :
    (s.joined f).joined g = s.joined fun id => f id ++ g id := by
  simp only [joined, List.map_map, Function.comp_def, joinAll, List.foldl_append]

theorem joined_sent (s : UseMessages) : s.joined (fun _ => [.sent]) = s := by
  simp [joined, sup_eq_left.mpr (MessageStatus.sent_le _)]

theorem deliver_eq_sup (messageId : ObjectId) (m : SocketMessagePayload) :
    (if m.id = messageId ∧ m.status = .sent then {m with status := .delivered} else m) =
      {m with status := m.status ⊔ if m.id = messageId then .delivered else .sent} := by
  obtain ⟨id, conversationId, sender, text, status, createdAt, updatedAt⟩ := m
  by_cases hid : id = messageId
  · simp only [hid, true_and, if_true]
    cases status <;> rfl
  · simp only [hid, false_and, if_false]
    cases status <;> rfl

theorem read_eq_sup (messageIds : List ObjectId) (m : SocketMessagePayload) :
    (if m.id ∈ messageIds then {m with status := .read} else m) =
      {m with status := m.status ⊔ if m.id ∈ messageIds then .read else .sent} := by
  split
  · rw [sup_eq_right.mpr (MessageStatus.le_read m.status)]
  · rw [sup_eq_left.mpr (MessageStatus.sent_le m.status)]

theorem onReceipt_eq (s : UseMessages) (e : ReceiptEvent) :
    s.onReceipt conversationId e = s.joined fun id => [e.target conversationId id] := by
  cases e with
  | delivered messageId c deliveredBy =>
    by_cases hc : c = conversationId
    · simp only [onReceipt, onDelivered, joined, ReceiptEvent.target, hc, ne_eq, not_true_eq_false,
        if_false, true_and, Data.joinAll_cons, Data.joinAll_nil, deliver_eq_sup]
    · simp only [onReceipt, onDelivered, ReceiptEvent.target, hc, ne_eq, not_false_eq_true, if_true,
        false_and, if_false, joined_sent]
  | read c messageIds readBy =>
    by_cases hc : c = conversationId
    · simp only [onReceipt, onRead, joined, ReceiptEvent.target, hc, ne_eq, not_true_eq_false,
        if_false, true_and, Data.joinAll_cons, Data.joinAll_nil, read_eq_sup]
    · simp only [onReceipt, onRead, ReceiptEvent.target, hc, ne_eq, not_false_eq_true, if_true,
        false_and, if_false, joined_sent]

theorem onReceipts_eq (s : UseMessages) (events : List ReceiptEvent) :
    s.onReceipts conversationId events =
      s.joined fun id => events.map fun e => e.target conversationId id := by
  induction events generalizing s with
  | nil => exact (joined_nil s).symm
  | cons e rest ih =>
    show (s.onReceipt conversationId e).onReceipts conversationId rest = _
    rw [ih, onReceipt_eq, joined_joined]
    rfl

theorem joined_congr {f g : ObjectId → List MessageStatus}
    (h : ∀ id status, status ∈ f id ↔ status ∈ g id) : s.joined f = s.joined g := by
  simp only [joined, Data.joinAll_congr (h _)]

theorem joined_le {f g : ObjectId → List MessageStatus} (h : ∀ id, f id ⊆ g id) :
    List.Forall₂ (fun m m' => m.status ≤ m'.status) (s.joined f).messages (s.joined g).messages := by
  rw [joined, joined, List.forall₂_map_left_iff, List.forall₂_map_right_iff, List.forall₂_same]
  intro m _
  have hbound := Data.joinAll_le_iff.mp (le_refl (joinAll m.status (g m.id)))
  exact Data.joinAll_le_iff.mpr ⟨hbound.1, fun status hstatus => hbound.2 status (h m.id hstatus)⟩

end

/-- **Receipts settle**: whatever the thread holds and whichever receipts come. -/
theorem receipts_settle (conversationId : Text) (s : UseMessages) (events : List ReceiptEvent) :
    Settles conversationId s events where
  confluent events' h := by
    rw [onReceipts_eq, onReceipts_eq]
    apply joined_congr
    intro id status
    simp only [List.mem_map, h]
  forward front h := by
    rw [onReceipts_eq, onReceipts_eq]
    exact joined_le fun id => List.map_subset _ h.subset
  unchanged := by
    rw [onReceipts_eq, joined, List.map_map]
    rfl
  others := ⟨_, onReceipts_eq s events⟩

end UseMessages

end RealtimeChat
