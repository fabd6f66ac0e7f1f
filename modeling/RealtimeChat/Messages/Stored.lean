import RealtimeChat.Messages.Sends

/-! One text for a message, wherever it turns up.

The validator sanitizes and measures a text, and Mongoose trims and measures what comes
of it. The second check never refuses and never changes what the first has let through,
so the text that is stored is the one that is broadcast, acknowledged and read back, and
sent again it is accepted as it is (`text_kept`). -/
namespace RealtimeChat
open Data (Text trim utf16Length)
open Zod (Value Schema)
open Async Async.System
open Async.Program

/-- The task handles a `message:send` whose payload was read as `input`. -/
def SentAs (pid : Nat) (input : SendMessageInput) (log : Log) : Prop :=
  ∃ socket args id, .arrived pid (.event socket .messageSend args id) ∈ log ∧
    sendMessageSchema.parse (args.getD 0 .undefined) = .ok input

/-- A payload of `message:send`. -/
def sendPayload (conversationId text : Text) : Value :=
  .object [("conversationId", .string conversationId), ("text", .string text)]

/-- What is kept of the texts that the validator lets through. -/
structure TextKept (c : Config chatInterface Server Failure Call Response) : Prop where
  /-- Mongoose has nothing against the text. -/
  valid : ∀ pid input, SentAs pid input c.world.log → ∀ id spelling senderId text t r,
    .answered pid (.messageCreate id spelling senderId text t) r ∈ c.world.log →
      text = input.text ∧ r ≠ .error .validationError
  stored : ∀ pid input, SentAs pid input c.world.log → ∀ m t, Inserted pid m t c.world.log →
    m.text = input.text ∧ ∃ m' ∈ c.world.state.messages.docs, m'.id = m.id ∧ m'.text = input.text
  broadcast : ∀ pid input, SentAs pid input c.world.log → ∀ room payload receivers,
    .acted pid (.emit room (.messageNew payload)) receivers ∈ c.world.log → payload.text = input.text
  acknowledged : ∀ pid input, SentAs pid input c.world.log → ∀ response payload,
    .acted pid (.ack response) () ∈ c.world.log → response.data = some payload →
      payload.text = input.text
  returned : ∀ pid input, SentAs pid input c.world.log → ∀ m t, Inserted pid m t c.world.log →
    ∀ (pid' : Nat) call page, c.tasks[pid']? = some ⟨call, .done (.ok (.messages page))⟩ →
      ∀ found ∈ page.messages, found.message.id = m.id → found.message.text = input.text
  /-- The stored text, sent once more. -/
  again : ∀ pid m t, Inserted pid m t c.world.log → ∀ spelling, ObjectId.isValid spelling = true →
    sendMessageSchema.parse (sendPayload spelling m.text) = .ok ⟨spelling, m.text⟩

/-! ### The two checks -/

theorem CleanText.stripHtmlTags {text : Text} (h : CleanText text) : stripHtmlTags text = text := by
  rw [stripHtmlTags_eq_strip, Data.Spans.strip_plain h.untagged, ← Data.trim_eq_trimBy, h.trimmed]

theorem CleanText.length_pos {text : Text} (h : CleanText text) : 1 ≤ utf16Length text := by
  cases text with
  | nil => exact absurd rfl h.nonempty
  | cons c rest =>
    rw [utf16Length, List.map_cons, List.sum_cons]
    split
    · exact Nat.le_add_right 1 _
    · exact Nat.le_add_right_of_le (by decide)

theorem CleanText.accepted {text spelling : Text} (h : CleanText text)
    (hid : ObjectId.isValid spelling = true) :
    sendMessageSchema.parse (sendPayload spelling text) = .ok ⟨spelling, text⟩ := by
  have htext : messageText (.string text) = ⟨some text, []⟩ := by
    simp [messageText, Schema.refine, Schema.transform, Schema.trimmed, Schema.string,
      Zod.Parsed.map, h.trimmed, h.short, h.stripHtmlTags, h.length_pos]
  have hobject : objectId (.string spelling) = ⟨some spelling, []⟩ := by
    simp [objectId, Schema.refine, Schema.string, hid]
  simp [Schema.parse, sendMessageSchema, sendPayload, Schema.object, Schema.field, Value.get,
    List.lookup_cons, Zod.Parsed.under, Zod.Parsed.both, Zod.Parsed.map, Zod.Parsed.result, htext, hobject]

/-- Mongoose refuses no clean text in a conversation that is named by an id. -/
theorem CleanText.created {text spelling : Text} (h : CleanText text)
    (hid : ObjectId.isValid spelling = true) (D : Deployment) (s : Server) (id senderId : ObjectId)
    (t : Nat) : (Server.answer D (.messageCreate id spelling senderId text t) s).1 ≠
      .error .validationError := by
  have hvalid : ¬ (trim text = [] ∨ 5000 < utf16Length (trim text)) := by
    rw [h.trimmed]
    exact not_or.mpr ⟨h.nonempty, Nat.not_lt.mpr h.short⟩
  obtain ⟨c, hcast⟩ := Option.isSome_iff_exists.mp ((ObjectId.isSome_cast spelling).trans hid)
  simp only [Server.answer, hcast, Server.createMessage, if_neg hvalid]
  cases s.messages.insert ⟨id, c, senderId, trim text, .sent, t, t⟩ with
  | none => simp
  | some messages => simp

/-! ### What is read back -/

theorem messageFind_kept {D : Deployment} {s : Server} {conversationId : Text}
    {before : Option (Option Int)} {limit : Nat} {found : List PopulatedMessage}
    (h : (Server.answer D (.messageFind conversationId before limit) s).1 = .ok found)
    {p : PopulatedMessage} (hp : p ∈ found) : Kept p.message s := by
  have hpage : ∀ id bound, p ∈ s.findPage D id bound limit → Kept p.message s := by
    intro id bound hmem
    obtain ⟨m, hm, rfl⟩ := List.mem_map.mp hmem
    have hmatching := (D.byCreation.perm _).mem_iff.mp (List.mem_of_mem_take hm)
    exact ⟨m, (List.mem_filter.mp hmatching).1, .refl m⟩
  simp only [Server.answer, Server.casting] at h
  split at h
  · rcases before with _ | _ | bound
    · exact hpage _ _ (Except.ok.inj h ▸ hp)
    · cases h
    · exact hpage _ _ (Except.ok.inj h ▸ hp)
  · cases h

/-- What has been found is stored. -/
def FoundKept (w : World chatInterface Server Failure Call) : Prop :=
  ∀ pid conversationId before limit found,
    .answered pid (.messageFind conversationId before limit) (.ok found) ∈ w.log →
      ∀ p ∈ found, Kept p.message w.state

theorem FoundKept.same {w w' : World chatInterface Server Failure Call} (h : FoundKept w)
    {e : Event chatInterface Failure Call} (hlog : w'.log = e :: w.log)
    (hs : w'.state.messages = w.state.messages) (he : ¬ e.Succeeded) : FoundKept w' := by
  intro pid conversationId before limit found hmem p hp
  rw [hlog] at hmem
  rw [Kept, hs]
  exact h pid conversationId before limit found (Event.mem_of_succeeded hmem trivial he) p hp

theorem foundKept_preserved (D : Deployment) : (chat D).Preserves Call.law FoundKept where
  acts h _ _ := h.same rfl (Server.act_messages D _ _) id
  rejects h _ _ := h.same rfl rfl id
  arrives h _ ha := h.same rfl (accept_sameBehind ha).messages id
  passes h := h
  answers := by
    intro pid call q w h _ _ pid' conversationId before limit found hmem p hp
    rcases List.mem_cons.mp hmem with heq | hmem
    · injection heq with _ hq hanswer
      subst hq
      exact (messageFind_kept (D := D) (eq_of_heq hanswer).symm hp).answer _
    · exact (h pid' conversationId before limit found hmem p hp).answer q

/-- A page that is returned has been cut from what the task has found. -/
def CutFromFound (before : Deeds) (r : Except Failure Response) : Prop :=
  ∀ page, r = .ok (.messages page) → ∃ conversationId cursor limit found,
    .answered (.messageFind conversationId cursor limit) (.ok found) ∈ before ∧
      ∀ p ∈ page.messages, p ∈ found

theorem mem_pageOf {found : List PopulatedMessage} {limit : Nat} {p : PopulatedMessage}
    (h : p ∈ (pageOf found limit).messages) : p ∈ found := by
  simp only [pageOf] at h
  split at h
  · exact List.mem_of_mem_take h
  · exact h

theorem body_cutFromFound (D : Deployment) (call : Call) :
    (Call.body D call).Obeys (fun _ _ => True) CutFromFound [] := by
  cases call with
  | getMessageHistory userId id page =>
    refine Obeys.bind_of (fun _ before => ?_) fun _ _ => nofun
    refine Obeys.bind_of (fun _ before => ?_) fun _ _ => nofun
    have hquery := @obeys_query chatInterface Failure (fun _ _ => True) before
      (.messageFind id (cursorOf page.before) (page.limit.toNat + 1))
    refine obeys_bind.mpr (obeys_bind.mpr (hquery.mpr fun r => ⟨trivial, ?_⟩))
    cases r with
    | error e => exact nofun
    | ok found =>
      intro result h
      cases h
      exact ⟨id, _, _, found, .head _, fun p hp => mem_pageOf hp⟩
  | createConversation userId body id =>
    show (createConversationHandler id userId body).Obeys _ _ _
    unfold createConversationHandler
    split
    · exact nofun
    · exact Obeys.bind_of (fun _ _ => nofun) fun _ _ => nofun
  | _ => exact Obeys.bind_of (fun _ _ => nofun) fun _ _ => nofun

/-- A page that a request has been answered with has stored messages only. -/
theorem page_kept (D : Deployment) (s : Server) (moves : List (Move Call)) {pid : Nat} {call : Call}
    {page : PaginatedMessages} (h : ((chat D).run (Config.start s) moves).tasks[pid]? =
      some ⟨call, .done (.ok (.messages page))⟩) {p : PopulatedMessage} (hp : p ∈ page.messages) :
    Kept p.message ((chat D).run (Config.start s) moves).world.state := by
  have hfound : FoundKept ((chat D).run (Config.start s) moves).world :=
    preserved_run (foundKept_preserved D) (by simp [FoundKept]) moves
  have hobedient : Obedient (fun _ _ _ => True) (fun _ => CutFromFound)
      ((chat D).run (Config.start s) moves) :=
    (Obedient.start s).run (chat D) (body_cutFromFound D) moves
  obtain ⟨conversationId, cursor, limit, found, hmem, hcut⟩ := hobedient.obeys pid _ h page rfl
  exact hfound pid conversationId cursor limit found (mem_deeds_answered.mp hmem) p (hcut p hp)

/-! ### From the payload to the pages -/

section
variable {D : Deployment} {s : Server} {moves : List (Move Call)} {pid : Nat} {input : SendMessageInput}

/-- What the task of a send does is by the law of sending that input. -/
theorem SentAs.law {c : Config chatInterface Server Failure Call Response}
    (h : SentAs pid input c.world.log) (hbehaved : Behaved c) (hpresent : Present c)
    {e : Event chatInterface Failure Call} {d : Deed chatInterface Failure} {later earlier : Log}
    (hlog : c.world.log = later ++ e :: earlier) (he : e.deed = some d) (hd : OfSend d)
    (hpid : e.pid = pid) : ∃ (socket : Socket) (args : List Value) (id : ObjectId),
      sendMessageSchema.parse (args.getD 0 .undefined) = .ok input ∧
        Sending.law socket.userId id (args.getD 0 .undefined) (deeds pid earlier) d := by
  obtain ⟨socket, args, id, harrived, hparse⟩ := h
  obtain ⟨socket', args', id', task, hentry, hlaw⟩ := hbehaved.sent hlog he hd
  rw [hpid] at hentry hlaw
  have harrived' := hbehaved.arrived pid _ hentry
  cases hpresent.unique harrived harrived'
  exact ⟨socket, args, id, hparse, hlaw⟩

/-- A task stores only what its client has sent. -/
theorem Inserted.sentAs {m : Message} {t : Nat}
    (h : Inserted pid m t ((chat D).run (Config.start s) moves).world.log) :
    ∃ input, SentAs pid input ((chat D).run (Config.start s) moves).world.log := by
  obtain ⟨id, spelling, senderId, text, hmem⟩ := h
  obtain ⟨later, earlier, hlog⟩ := List.append_of_mem hmem
  obtain ⟨socket, args, id, task, hentry, hlaw⟩ := (behaved_run D s moves).sent hlog rfl trivial
  obtain ⟨input, c, hparse, -⟩ := hlaw
  exact ⟨input, socket, args, id, (behaved_run D s moves).arrived pid _ hentry, hparse⟩

theorem SentAs.clean (h : SentAs pid input ((chat D).run (Config.start s) moves).world.log) :
    CleanText input.text := by
  obtain ⟨socket, args, id, -, hparse⟩ := h
  exact sendMessage_clean hparse

theorem SentAs.created (h : SentAs pid input ((chat D).run (Config.start s) moves).world.log)
    {id senderId : ObjectId} {spelling text : Text} {t : Nat} {r : Except Failure Message}
    (hmem : .answered pid (.messageCreate id spelling senderId text t) r ∈
      ((chat D).run (Config.start s) moves).world.log) :
    text = input.text ∧ r ≠ .error .validationError := by
  obtain ⟨later, earlier, hlog⟩ := List.append_of_mem hmem
  obtain ⟨socket, args, _, hparse, input', c, hparse', -, hspelling, -, htext, -⟩ :=
    h.law (behaved_run D s moves) ((Present.start s).run (chat D) moves) hlog rfl trivial rfl
  obtain rfl : input = input' := Except.ok.inj (hparse.symm.trans hparse')
  refine ⟨htext, ?_⟩
  rcases (chat D).run_answerable s moves _ hmem with ⟨state, hanswer⟩ | ⟨-, hfault⟩
  · rw [hanswer, htext, hspelling]
    exact (sendMessage_clean hparse).created (sendMessage_isValid hparse) D state id senderId t
  · rw [hfault]
    exact fun heq => Failure.noConfusion (Except.error.inj heq)

theorem SentAs.stored (h : SentAs pid input ((chat D).run (Config.start s) moves).world.log)
    {m : Message} {t : Nat} (hm : Inserted pid m t ((chat D).run (Config.start s) moves).world.log) :
    m.text = input.text := by
  obtain ⟨id, spelling, senderId, text, hmem⟩ := hm
  obtain ⟨-, hfields⟩ := (booked_run D s moves).made _ _ _ _ _ _ _ hmem
  rw [hfields, ← h.clean.trimmed, ← (h.created hmem).1]

end

/-- **One text**: in every run, whatever is interleaved and whatever fails, the text of a
message is the one that the validator has made of what its sender typed. -/
theorem text_kept (D : Deployment) (s : Server) (moves : List (Move Call)) :
    TextKept ((chat D).run (Config.start s) moves) where
  valid pid input h id spelling senderId text t r hmem := h.created hmem
  stored pid input h m t hm := by
    obtain ⟨m', hm', hsame⟩ := (booked_run D s moves).inserted pid m t hm
    exact ⟨h.stored hm, m', hm', hsame.id, hsame.text.trans (h.stored hm)⟩
  broadcast pid input h room payload receivers hmem := by
    obtain ⟨later, earlier, hlog⟩ := List.append_of_mem hmem
    obtain ⟨socket, args, id, task, input', conversation, t, m, t', sender, -, -, -, rfl, hdeeds⟩ :=
      (behaved_run D s moves).announced hlog
    exact h.stored ⟨_, _, _, _, (announced_inserted hlog hdeeds).1⟩
  acknowledged pid input h response payload hmem hdata := by
    obtain ⟨later, earlier, hlog⟩ := List.append_of_mem hmem
    have hof : OfSend (.acted (.ack response) ()) := by simp [OfSend, hdata]
    obtain ⟨socket, args, id, -, hlaw⟩ := h.law (behaved_run D s moves)
      ((Present.start s).run (chat D) moves) hlog rfl hof rfl
    rcases hlaw with ⟨-, hnone, -⟩ | ⟨input', c, t, m, t', sender, receivers, -, hresponse, hdeeds⟩
    · rw [hdata] at hnone
      cases hnone
    · rw [hresponse] at hdata
      obtain rfl := Option.some.inj hdata
      have hinserted : .answered pid (.messageCreate id input'.conversationId socket.userId
          input'.text t) (.ok m) ∈ ((chat D).run (Config.start s) moves).world.log := by
        rw [hlog]
        refine List.mem_append_right _ (.tail _ (mem_deeds_answered.mp ?_))
        rw [hdeeds]
        exact .tail _ (.tail _ (.tail _ (.tail _ (.head _))))
      exact h.stored ⟨_, _, _, _, hinserted⟩
  returned pid input h m t hm pid' call page hdone found hfound hid := by
    have hkept := page_kept D s moves hdone hfound
    obtain ⟨d, hsame, hsame'⟩ := hkept.common ((booked_run D s moves).inserted pid m t hm) hid
    rw [← hsame.text, hsame'.text, h.stored hm]
  again pid m t hm spelling hid := by
    obtain ⟨input, h⟩ := hm.sentAs
    rw [h.stored hm]
    exact h.clean.accepted hid

end RealtimeChat
