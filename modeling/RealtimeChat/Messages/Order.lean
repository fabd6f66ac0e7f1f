import RealtimeChat.Messages.Integrity

/-! In which order messages are stored and announced.

A message bears the time at which its insert was issued. Before that its handler waits
for the membership query, and after it for three queries more, each for as long as it
takes; so handlers overtake each other. Overtaking after the insert is what makes a live
client see another order than the history (`broadcast_order_iff`), and overtaking before
it is what puts one sender's own messages out of order (`own_order_iff`). -/
namespace RealtimeChat
open Data (Text Collection)
open Zod (Value)
open Async Async.System

/-- The task has found the conversation so spelled and then issued, at `t`, the insert of
a message to it. -/
def IssuedAt (pid : Nat) (conversationId : ObjectId) (t : Nat) (log : Log) : Prop :=
  ∃ spelling userId conversation later before, ObjectId.cast spelling = some conversationId ∧
    deeds pid log = later ++ .acted .now t ::
      .answered (.conversationFindOne (.string spelling) userId) (.ok (some conversation)) :: before

/-- Messages of one conversation are announced in the order of their times. -/
def BroadcastInOrder (w : World chatInterface Server Failure Call) : Prop :=
  ∀ later pid room payload receivers earlier,
    w.log = later ++ .acted pid (.emit room (.messageNew payload)) receivers :: earlier →
    ∀ payload' ∈ announcements earlier, payload'.conversationId = payload.conversationId →
    ∀ m ∈ w.state.messages.docs, ∀ m' ∈ w.state.messages.docs, m.id = payload.id →
      m'.id = payload'.id → m'.createdAt ≤ m.createdAt

/-- When a task announces its message, every task that has issued its insert into the same
conversation in an earlier millisecond has announced its own already, or never will. -/
def NoneOvertaken (log : Log) : Prop :=
  ∀ later pid room payload receivers earlier,
    log = later ++ .acted pid (.emit room (.messageNew payload)) receivers :: earlier →
    ∀ t pid' t', IssuedAt pid payload.conversationId t earlier →
      IssuedAt pid' payload.conversationId t' earlier → t' < t →
      HasAnnounced pid' log → HasAnnounced pid' earlier

/-- Both tasks send a message for the same socket. -/
def SameSender (pid pid' : Nat) (log : Log) : Prop :=
  ∃ socket args id args' id', .arrived pid (.event socket .messageSend args id) ∈ log ∧
    .arrived pid' (.event socket .messageSend args' id') ∈ log

/-- Of what one socket has sent to one conversation, all of it accepted, what was sent
earlier bears the earlier time, or the same. -/
def OwnOrder (w : World chatInterface Server Failure Call) : Prop :=
  ∀ pid pid', pid < pid' → SameSender pid pid' w.log →
    ∀ room receivers payload room' receivers' payload',
    .acted pid (.emit room (.messageNew payload)) receivers ∈ w.log →
    .acted pid' (.emit room' (.messageNew payload')) receivers' ∈ w.log →
    payload.conversationId = payload'.conversationId →
    ∀ m ∈ w.state.messages.docs, ∀ m' ∈ w.state.messages.docs, m.id = payload.id →
      m'.id = payload'.id → m.createdAt ≤ m'.createdAt

/-- When a task issues its insert, each task that its socket has started earlier for the
same conversation has issued its own, or does so in the same millisecond. (Both are to
be accepted.) -/
def InsertsInTurn (log : Log) : Prop :=
  ∀ later pid' t' earlier conversationId, log = later ++ .acted pid' .now t' :: earlier →
    IssuedAt pid' conversationId t' (.acted pid' .now t' :: earlier) →
    HasAnnounced pid' log → ∀ pid t, pid < pid' → SameSender pid pid' log →
      IssuedAt pid conversationId t log → HasAnnounced pid log →
      IssuedAt pid conversationId t earlier ∨ t = t'

/-! ### The insert behind an announcement -/

section
variable {pid : Nat} {conversationId : ObjectId} {t : Nat}

theorem IssuedAt.append {log : Log} (h : IssuedAt pid conversationId t log) (new : Log) :
    IssuedAt pid conversationId t (new ++ log) := by
  obtain ⟨spelling, userId, conversation, later, before, hcast, hdeeds⟩ := h
  refine ⟨spelling, userId, conversation, deeds pid new ++ later, before, hcast, ?_⟩
  rw [deeds_append, hdeeds, List.append_assoc]

/-- An insert was issued in the earlier part of a log, or in the later. -/
theorem IssuedAt.split {above below : Log} (h : IssuedAt pid conversationId t (above ++ below)) :
    IssuedAt pid conversationId t below ∨ .acted pid .now t ∈ above := by
  obtain ⟨spelling, userId, conversation, later, before, hcast, hdeeds⟩ := h
  rw [deeds_append] at hdeeds
  rcases List.append_eq_append_iff.mp hdeeds with ⟨more, -, hbelow⟩ | ⟨more, habove, hbelow⟩
  · exact .inl ⟨spelling, userId, conversation, more, before, hcast, hbelow⟩
  · cases more with
    | nil => exact .inl ⟨spelling, userId, conversation, [], before, hcast, hbelow.symm⟩
    | cons d more =>
      obtain ⟨rfl, -⟩ := List.cons.inj hbelow
      rw [← mem_deeds_acted, habove]
      exact .inr (List.mem_append_right _ (.head _))

theorem IssuedAt.mem {log : Log} (h : IssuedAt pid conversationId t log) :
    .acted pid .now t ∈ log := by
  obtain ⟨spelling, userId, conversation, later, before, -, hdeeds⟩ := h
  rw [← mem_deeds_acted, hdeeds]
  exact List.mem_append_right _ (.head _)

/-- The entry with which the insert was issued. -/
theorem IssuedAt.entry {log : Log} (h : IssuedAt pid conversationId t log) :
    ∃ later earlier, log = later ++ .acted pid .now t :: earlier ∧
      IssuedAt pid conversationId t (.acted pid .now t :: earlier) := by
  induction log with
  | nil =>
    have hmem := h.mem
    cases hmem
  | cons e rest ih =>
    rcases @IssuedAt.split _ _ _ [e] rest h with hrest | hread
    · obtain ⟨later, earlier, rfl, hentry⟩ := ih hrest
      exact ⟨e :: later, earlier, rfl, hentry⟩
    · obtain rfl := List.mem_singleton.mp hread
      exact ⟨[], rest, rfl, h⟩

end

/-- What a send issues, it issues once: right after it was let through and has found its
conversation. -/
theorem Sending.issued_bottom {userId id : ObjectId} {payload : Value} {later before : Deeds}
    {t : Nat} {v : Value} {u : ObjectId} {conversation : Conversation}
    (hlawful : Lawful (Sending.law userId id payload) (later ++ .acted .now t ::
      .answered (.conversationFindOne v u) (.ok (some conversation)) :: before)) :
    ∃ input, sendMessageSchema.parse payload = .ok input ∧ v = .string input.conversationId ∧
      before = Sending.admitted userId := by
  obtain ⟨⟨input, hparse, ⟨c, hfound⟩ | ⟨c, t', m, hcreated⟩⟩, -⟩ := hlawful.at
  · obtain ⟨hfind, hbefore⟩ := List.cons.inj hfound
    cases hfind
    exact ⟨input, hparse, rfl, hbefore⟩
  · cases (List.cons.inj hcreated).1

section
variable {c : Config chatInterface Server Failure Call Response} {start : Messages}

/-- A send issues one insert. -/
theorem Behaved.issued_once (h : Behaved c) {pid : Nat} {socket : Socket} {args : List Value}
    {id : ObjectId} {task : Task chatInterface Failure Response}
    (hentry : c.tasks[pid]? = some ⟨.event socket .messageSend args id, task⟩)
    {conversationId conversationId' : ObjectId} {t t' : Nat}
    (hi : IssuedAt pid conversationId t c.world.log)
    (hi' : IssuedAt pid conversationId' t' c.world.log) :
    conversationId = conversationId' ∧ t = t' := by
  have hlawful : Lawful (Sending.law socket.userId id (args.getD 0 .undefined)) _ :=
    h.lawful pid _ hentry
  obtain ⟨spelling, u, conversation, later, before, hcast, hdeeds⟩ := hi
  obtain ⟨spelling', u', conversation', later', before', hcast', hdeeds'⟩ := hi'
  obtain ⟨input, hparse, hv, rfl⟩ := Sending.issued_bottom (hdeeds ▸ hlawful)
  obtain ⟨input', hparse', hv', rfl⟩ := Sending.issued_bottom (hdeeds' ▸ hlawful)
  obtain rfl : input = input' := Except.ok.inj (hparse.symm.trans hparse')
  have hlength := congrArg List.length (hdeeds.symm.trans hdeeds')
  obtain ⟨-, hrest⟩ := List.append_inj (hdeeds.symm.trans hdeeds') (by simpa using hlength)
  obtain ⟨htime, -⟩ := List.cons.inj hrest
  cases htime
  cases hv.trans hv'.symm
  exact ⟨Option.some.inj (hcast.symm.trans hcast'), rfl⟩

/-- A task that has announced is a send. -/
theorem Behaved.issued_unique (h : Behaved c) {pid : Nat} (hannounced : HasAnnounced pid c.world.log)
    {conversationId conversationId' : ObjectId} {t t' : Nat}
    (hi : IssuedAt pid conversationId t c.world.log)
    (hi' : IssuedAt pid conversationId' t' c.world.log) :
    conversationId = conversationId' ∧ t = t' := by
  obtain ⟨room, payload, receivers, hmem⟩ := hannounced
  obtain ⟨above, below, hlog⟩ := List.append_of_mem hmem
  obtain ⟨socket, args, id, task, -, -, -, -, -, -, hentry, -⟩ := h.announced hlog
  exact h.issued_once hentry hi hi'

/-- The insert behind an announcement, and the time that its message bears. -/
theorem Behaved.announced_issued (h : Behaved c) (hb : Booked start c.world) {pid : Nat} {room : Text}
    {payload : SocketMessagePayload} {receivers : List Socket} {later earlier : Log}
    (hlog : c.world.log = later ++ .acted pid (.emit room (.messageNew payload)) receivers :: earlier) :
    ∃ t, IssuedAt pid payload.conversationId t earlier ∧
      (∃ m ∈ c.world.state.messages.docs, m.id = payload.id) ∧
      ∀ m ∈ c.world.state.messages.docs, m.id = payload.id → m.createdAt = t := by
  obtain ⟨socket, args, id, task, input, conversation, t, m, t', sender, -, -, -, rfl, hdeeds⟩ :=
    h.announced hlog
  obtain ⟨hinserted, -⟩ := announced_inserted hlog hdeeds
  obtain ⟨hcast, hfields⟩ := hb.made _ _ _ _ _ _ _ hinserted
  obtain ⟨m', hm', hsame⟩ := hb.inserted pid m t ⟨_, _, _, _, hinserted⟩
  have htime : m'.createdAt = t := by rw [hsame.createdAt, hfields]
  refine ⟨t, ⟨input.conversationId, socket.userId, conversation,
      (Sending.populated socket.userId input id conversation t m t' sender).take 4,
      Sending.admitted socket.userId, hcast, hdeeds⟩,
    ⟨m', hm', hsame.id⟩, fun m₁ hm₁ hid => ?_⟩
  rw [c.world.state.messages.eq_of_key hm₁ hm' (hid.trans hsame.id.symm)]
  exact htime

/-- A task that has announced a message is behind one entry of the log. -/
theorem HasAnnounced.split {log : Log} {pid : Nat} (h : HasAnnounced pid log) :
    ∃ later room payload receivers earlier,
      log = later ++ .acted pid (.emit room (.messageNew payload)) receivers :: earlier := by
  obtain ⟨room, payload, receivers, hmem⟩ := h
  obtain ⟨later, earlier, hlog⟩ := List.append_of_mem hmem
  exact ⟨later, room, payload, receivers, earlier, hlog⟩

theorem HasAnnounced.append {log : Log} {pid : Nat} (h : HasAnnounced pid log) (new : Log) :
    HasAnnounced pid (new ++ log) := by
  obtain ⟨room, payload, receivers, hmem⟩ := h
  exact ⟨room, payload, receivers, List.mem_append_right new hmem⟩

/-- The announcement of a task whose insert is known, and the time that its message bears. -/
theorem Behaved.announced_behind (h : Behaved c) (hb : Booked start c.world) {pid : Nat}
    {conversationId : ObjectId} {t : Nat} (hannounced : HasAnnounced pid c.world.log)
    (hi : IssuedAt pid conversationId t c.world.log) : ∃ room payload receivers,
      .acted pid (.emit room (.messageNew payload)) receivers ∈ c.world.log ∧
      payload.conversationId = conversationId ∧
      (∃ m ∈ c.world.state.messages.docs, m.id = payload.id) ∧
      ∀ m ∈ c.world.state.messages.docs, m.id = payload.id → m.createdAt = t := by
  obtain ⟨later, room, payload, receivers, earlier, hlog⟩ := hannounced.split
  obtain ⟨t₀, hi₀, hstored, htime⟩ := h.announced_issued hb hlog
  obtain ⟨rfl, rfl⟩ := h.issued_unique hannounced hi
    (hlog ▸ (List.append_cons later _ _) ▸ hi₀.append _)
  exact ⟨room, payload, receivers, by simp [hlog], rfl, hstored, htime⟩

theorem BroadcastInOrder.noneOvertaken (h : BroadcastInOrder c.world) (hbehaved : Behaved c)
    (hb : Booked start c.world) : NoneOvertaken c.world.log := by
  intro later pid room payload receivers earlier hlog t pid' t' hi hi' hlt hbroadcasts
  by_contra hnot
  obtain ⟨t₀, hi₀, ⟨m, hm, hid⟩, htime⟩ := hbehaved.announced_issued hb hlog
  have hwhole : ∀ {p k n}, IssuedAt p k n earlier → IssuedAt p k n c.world.log := by
    intro p k n h
    rw [hlog, List.append_cons]
    exact h.append _
  have hmine : HasAnnounced pid c.world.log := ⟨room, payload, receivers, by simp [hlog]⟩
  obtain ⟨-, rfl⟩ := hbehaved.issued_unique hmine (hwhole hi) (hwhole hi₀)
  obtain ⟨room', payload', receivers', hmem⟩ := hbroadcasts
  rw [hlog, List.mem_append, List.mem_cons] at hmem
  rcases hmem with hmem | heq | hmem
  · -- The task that was overtaken announces later, and its message is the older one.
    obtain ⟨front, back, rfl⟩ := List.append_of_mem hmem
    rw [List.append_assoc, List.cons_append] at hlog
    obtain ⟨t₁, hi₁, ⟨m', hm', hid'⟩, htime'⟩ := hbehaved.announced_issued hb hlog
    obtain ⟨hconversation, rfl⟩ := hbehaved.issued_unique
      ⟨room', payload', receivers', by simp [hlog]⟩ (hwhole hi')
      (hlog ▸ (List.append_cons front _ _) ▸ hi₁.append _)
    have hle := h front pid' room' payload' receivers' _ hlog payload
      (mem_announcements.mpr ⟨_, List.mem_append_right _ (.head _), rfl⟩) hconversation
      m' hm' m hm hid' hid
    rw [htime m hm hid, htime' m' hm' hid'] at hle
    exact absurd hlt (Nat.not_lt.mpr hle)
  · cases heq
    obtain ⟨-, rfl⟩ := hbehaved.issued_unique hmine (hwhole hi) (hwhole hi')
    exact Nat.lt_irrefl _ hlt
  · exact hnot ⟨room', payload', receivers', hmem⟩

theorem NoneOvertaken.inOrder (h : NoneOvertaken c.world.log) (hbehaved : Behaved c)
    (hb : Booked start c.world) {clock : Nat} (htimed : Timed clock c.world)
    (hannounced : Announced c.world) : BroadcastInOrder c.world := by
  intro later pid room payload receivers earlier hlog payload' hmem hsame m hm m' hm' hid hid'
  obtain ⟨e, he, hpayload'⟩ := mem_announcements.mp hmem
  obtain ⟨front, back, rfl⟩ := List.append_of_mem he
  have hlog' : c.world.log = (later ++ .acted pid (.emit room (.messageNew payload)) receivers ::
      front) ++ e :: back := by rw [hlog, List.append_assoc, List.cons_append]
  obtain ⟨pid', room', receivers', rfl, -, -⟩ := announcement_eq_some hpayload' hannounced hlog'
  obtain ⟨t, hi, -, htime⟩ := hbehaved.announced_issued hb hlog
  obtain ⟨t', hi', -, htime'⟩ := hbehaved.announced_issued hb hlog'
  rw [htime m hm hid, htime' m' hm' hid']
  by_contra hnot
  have hlt : t < t' := Nat.not_le.mp hnot
  rw [List.append_cons] at hi
  rcases hi.split with hi | hread
  · -- Both inserts had been issued when the younger message was announced.
    have hearly := h _ pid' room' payload' receivers' back hlog' t' pid t hi' (hsame ▸ hi) hlt
      ⟨room, payload, receivers, by simp [hlog]⟩
    have hfirst : ¬ HasAnnounced pid _ := (Each.at (hlog ▸ hannounced.each)).1.2
    rw [List.append_cons] at hfirst
    exact hfirst (hearly.append _)
  · have hsplit : c.world.log = (later ++ .acted pid (.emit room (.messageNew payload)) receivers ::
        (front ++ [.acted pid' (.emit room' (.messageNew payload')) receivers'])) ++ back := by
      simp [hlog]
    exact hnot (htimed.le hsplit (List.mem_append_right _ (.tail _ hread)) hi'.mem)

end

/-- **The order of the broadcasts is that of the times** exactly when no handler broadcasts
while another, which has issued its insert for the conversation in an earlier
millisecond, is still under way to its own broadcast. -/
theorem broadcast_order_iff (D : Deployment) (s : Server) (moves : List (Move Call)) :
    BroadcastInOrder ((chat D).run (Config.start s) moves).world ↔
      NoneOvertaken ((chat D).run (Config.start s) moves).world.log := by
  have hbehaved := behaved_run D s moves
  have hbooked := booked_run D s moves
  constructor
  · intro h
    exact h.noneOvertaken hbehaved hbooked
  · intro h
    exact h.inOrder hbehaved hbooked (timed_run D s moves) (announced_run D s moves)

/-! Two members write to their conversation. -/

def orderServer : Server := .boot .empty
  (.single ⟨.ending 10, .oneToOne, none, [.ending 1, .ending 2], none, 0, 0⟩) .empty 0

def orderAnn : Socket := ⟨.ofChar 'a', .ending 1, "ann".toList⟩

def orderBob : Socket := ⟨.ofChar 'b', .ending 2, "bob".toList⟩

def orderSend (socket : Socket) (text : String) (id : ObjectId) : Move Call :=
  .arrive (.event socket .messageSend
    [.object [("conversationId", .string (ObjectId.ending 10).toString),
      ("text", .string text.toList)], .function] id)

/-- Ann's insert is issued at 0 and Bob's at 1; Bob's other queries are answered first. -/
def overtakingMoves : List (Move Call) :=
  [.arrive (.connect orderAnn), .arrive (.connect orderBob), orderSend orderAnn "one" (.ending 4)] ++
    Move.rounds 2 1 ++ [.pass 1, orderSend orderBob "two" (.ending 5)] ++ Move.rounds 3 4 ++
    Move.rounds 2 3

def overtakingRun : Config chatInterface Server Failure Call Response :=
  (chat .default).run (Config.start orderServer) overtakingMoves

theorem overtaking_disorders : ¬ BroadcastInOrder overtakingRun.world := by
  intro h
  obtain ⟨room, payload, receivers, hlog, hid, hconversation⟩ : ∃ room payload receivers,
      overtakingRun.world.log = overtakingRun.world.log.take 1 ++
        .acted 2 (.emit room (.messageNew payload)) receivers :: overtakingRun.world.log.drop 2 ∧
      payload.id = .ending 4 ∧ payload.conversationId = .ending 10 := ⟨_, _, _, rfl, rfl, rfl⟩
  obtain ⟨payload', hmem, hid', hconversation'⟩ :
      ∃ payload' ∈ announcements (overtakingRun.world.log.drop 2),
        payload'.id = .ending 5 ∧ payload'.conversationId = .ending 10 :=
    ⟨_, List.mem_of_getElem? (i := 0) rfl, rfl, rfl⟩
  have hle := h _ 2 room payload receivers _ hlog payload' hmem
    (hconversation'.trans hconversation.symm) _ (List.mem_of_getElem? (i := 1) rfl) _
    (List.mem_of_getElem? (i := 0) rfl) hid.symm hid'.symm
  exact absurd hle (by decide)

section
variable {c : Config chatInterface Server Failure Call Response} {start : Messages} {clock : Nat}

theorem OwnOrder.insertsInTurn (h : OwnOrder c.world) (hbehaved : Behaved c)
    (hbooked : Booked start c.world) (htimed : Timed clock c.world) : InsertsInTurn c.world.log := by
  intro later pid' t' earlier conversationId hlog hi' hannounced' pid t hlt hsender hi hannounced
  have hsplit : c.world.log = (later ++ [.acted pid' .now t']) ++ earlier := by simp [hlog]
  rw [hsplit] at hi
  rcases hi.split with hi | hread
  · exact .inl hi
  · right
    have hle : t' ≤ t := by
      rcases List.mem_append.mp hread with hread | heq
      · exact htimed.le hlog hread (.head _)
      · cases List.mem_singleton.mp heq
        exact Nat.le_refl _
    obtain ⟨room, payload, receivers, hmem, hconversation, ⟨m, hm, hid⟩, htime⟩ :=
      hbehaved.announced_behind hbooked hannounced (hsplit ▸ hi)
    obtain ⟨room', payload', receivers', hmem', hconversation', ⟨m', hm', hid'⟩, htime'⟩ :=
      hbehaved.announced_behind hbooked hannounced' (hlog ▸ hi'.append later)
    have hown := h pid pid' hlt hsender _ _ _ _ _ _ hmem hmem'
      (hconversation.trans hconversation'.symm) m hm m' hm' hid hid'
    rw [htime m hm hid, htime' m' hm' hid'] at hown
    exact Nat.le_antisymm hown hle

theorem InsertsInTurn.ownOrder (h : InsertsInTurn c.world.log) (hbehaved : Behaved c)
    (hbooked : Booked start c.world) (htimed : Timed clock c.world) : OwnOrder c.world := by
  intro pid pid' hlt hsender room receivers payload room' receivers' payload' hmem hmem' hsame
    m hm m' hm' hid hid'
  obtain ⟨above, below, hlog⟩ := List.append_of_mem hmem
  obtain ⟨above', below', hlog'⟩ := List.append_of_mem hmem'
  obtain ⟨t, hi, -, htime⟩ := hbehaved.announced_issued hbooked hlog
  obtain ⟨t', hi', -, htime'⟩ := hbehaved.announced_issued hbooked hlog'
  rw [htime m hm hid, htime' m' hm' hid']
  have hwhole : IssuedAt pid payload.conversationId t c.world.log :=
    hlog ▸ (List.append_cons above _ _) ▸ hi.append _
  have hwhole' : IssuedAt pid' payload.conversationId t' c.world.log :=
    hsame ▸ hlog' ▸ (List.append_cons above' _ _) ▸ hi'.append _
  obtain ⟨later, earlier, hentry, hissued⟩ := hwhole'.entry
  rcases h later pid' t' earlier _ hentry hissued ⟨_, _, _, hmem'⟩ pid t hlt hsender hwhole
    ⟨_, _, _, hmem⟩ with hearly | rfl
  · have hsplit : c.world.log = (later ++ [.acted pid' .now t']) ++ earlier := by simp [hentry]
    exact htimed.le hsplit (List.mem_append_right _ (.head _)) hearly.mem
  · exact Nat.le_refl _

end

/-- **The order of one sender's own messages** is the order in which they were sent
exactly when no handler issues its insert while an earlier one of the same socket, for the
same conversation, is still waiting for its membership query and issues its own in a
later millisecond. -/
theorem own_order_iff (D : Deployment) (s : Server) (moves : List (Move Call)) :
    OwnOrder ((chat D).run (Config.start s) moves).world ↔
      InsertsInTurn ((chat D).run (Config.start s) moves).world.log := by
  have hbehaved := behaved_run D s moves
  have hbooked := booked_run D s moves
  have htimed := timed_run D s moves
  constructor
  · intro h
    exact h.insertsInTurn hbehaved hbooked htimed
  · intro h
    exact h.ownOrder hbehaved hbooked htimed

/-- Ann sends twice, and the second membership query is answered first. -/
def impatientMoves : List (Move Call) :=
  [.arrive (.connect orderAnn), orderSend orderAnn "one" (.ending 4),
    orderSend orderAnn "two" (.ending 5)] ++ Move.rounds 2 1 ++ [.pass 1] ++ Move.rounds 1 4 ++
    Move.rounds 2 3

def impatientRun : Config chatInterface Server Failure Call Response :=
  (chat .default).run (Config.start orderServer) impatientMoves

theorem impatient_disorders : ¬ OwnOrder impatientRun.world := by
  intro h
  obtain ⟨room, payload, receivers, hmem, hid, hconversation⟩ : ∃ room payload receivers,
      .acted 1 (.emit room (.messageNew payload)) receivers ∈ impatientRun.world.log ∧
      payload.id = .ending 4 ∧ payload.conversationId = .ending 10 :=
    ⟨_, _, _, List.mem_of_getElem? (i := 7) rfl, rfl, rfl⟩
  obtain ⟨room', payload', receivers', hmem', hid', hconversation'⟩ : ∃ room payload receivers,
      .acted 2 (.emit room (.messageNew payload)) receivers ∈ impatientRun.world.log ∧
      payload.id = .ending 5 ∧ payload.conversationId = .ending 10 :=
    ⟨_, _, _, List.mem_of_getElem? (i := 1) rfl, rfl, rfl⟩
  have hsender : SameSender 1 2 impatientRun.world.log :=
    ⟨_, _, _, _, _, List.mem_of_getElem? (i := 19) rfl, List.mem_of_getElem? (i := 17) rfl⟩
  have hle := h 1 2 (by decide) hsender _ _ _ _ _ _ hmem hmem'
    (hconversation.trans hconversation'.symm) _ (List.mem_of_getElem? (i := 0) rfl) _
    (List.mem_of_getElem? (i := 1) rfl) hid.symm hid'.symm
  exact absurd hle (by decide)

end RealtimeChat
