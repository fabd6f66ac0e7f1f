import RealtimeChat.Async.Trace
import RealtimeChat.Handlers.Lawful
import RealtimeChat.Model.Effects

/-! What a `message:send` leaves behind that is reported as failed.

The report of failure may come after any of the queries of `createMessage`. Up to the
insert nothing has been written; after it, the message is stored and nothing takes it
back (`refused_traceless_iff`). A client that sends the text again then stores it twice. -/
namespace RealtimeChat
open Data (Text Collection)
open Zod (Value)
open Async Async.System

/-- The task has reported that its message was not sent. -/
def Refuses (pid : Nat) (log : Log) : Prop :=
  ∃ socket args id response, .arrived pid (.event socket .messageSend args id) ∈ log ∧
    .acted pid (.ack response) () ∈ log ∧ response.success = false

/-- One of the task's queries after the insert has failed. -/
def FailsLate (pid : Nat) (log : Log) : Prop :=
  (∃ id lastMessage now e, .answered pid (.conversationSave id lastMessage now) (.error e) ∈ log) ∨
    ∃ senderId e, .answered pid (.messagePopulate senderId) (.error e) ∈ log

/-- The same messages and conversations, `lastMessage` and `updatedAt` included. -/
structure SameData (s s' : Server) : Prop where
  messages : s'.messages = s.messages
  conversations : s'.conversations = s.conversations

/-- The move is a step of the task. -/
def MoveOf (pid : Nat) (c : Config chatInterface Server Failure Call Response) : Move Call → Prop
  | .arrive _ => c.tasks.length = pid
  | .answer pid' => pid' = pid
  | .fail pid' => pid' = pid
  | .resume pid' => pid' = pid
  | .pass _ => False

/-- No step of the task changes the messages or the conversations. -/
def Traceless (D : Deployment) (s : Server) (moves : List (Move Call)) (pid : Nat) : Prop :=
  ∀ before m, before ++ [m] <+: moves → MoveOf pid ((chat D).run (Config.start s) before) m →
    SameData ((chat D).run (Config.start s) before).world.state
      ((chat D).run (Config.start s) (before ++ [m])).world.state

/-! ### Which steps write -/

section
variable {D : Deployment}

theorem SameData.refl (s : Server) : SameData s s := ⟨rfl, rfl⟩

theorem settle_sameData (pid : Nat) (p : Chat Response) (w : World chatInterface Server Failure Call) :
    SameData w.state ((chat D).settle pid p w).2.state := by
  induction p generalizing w with
  | ret v => exact .refl _
  | raise e => exact .refl _
  | await q next => exact .refl _
  | act a next ih =>
    have h := ih (Server.act D a w.state).1 ((chat D).perform pid a w)
    exact ⟨h.messages.trans (Server.act_messages D a _),
      h.conversations.trans (Server.act_conversations D a _)⟩

/-- Only an answer can write. -/
theorem step_sameData (c : Config chatInterface Server Failure Call Response) (m : Move Call) :
    SameData c.world.state ((chat D).step c m).world.state ∨
      ∃ pid q, m = .answer pid ∧ ((chat D).step c m).world = (chat D).respond pid q c.world := by
  have hstep := (chat D).step_stepped c m
  generalize (chat D).step c m = c' at hstep ⊢
  cases hstep with
  | idle => exact .inl (.refl _)
  | @arrive call s ha =>
    have hsame := accept_sameBehind ha
    have h := settle_sameData (D := D) c.tasks.length ((chat D).body call)
      (arrival c.tasks.length call s c.world)
    exact .inl ⟨h.messages.trans hsame.messages, h.conversations.trans hsame.conversations⟩
  | answer he => exact .inr ⟨_, _, rfl, rfl⟩
  | fail he hf => exact .inl (.refl _)
  | resume he => exact .inl (settle_sameData _ _ _)
  | pass n => exact .inl ⟨rfl, rfl⟩

/-- A query that finds a conversation, or an insert that is refused. -/
def WritesNothing : Deed chatInterface Failure → Prop
  | .answered (.conversationFindOne _ _) _ => True
  | .answered (.messageCreate _ _ _ _ _) (.error _) => True
  | .answered _ _ => False
  | .acted _ _ => True

theorem WritesNothing.sameData {q : Query} {s : Server}
    (h : WritesNothing (.answered q (Server.answer D q s).1)) : SameData s (Server.answer D q s).2 := by
  cases q with
  | conversationFindOne id member =>
    rw [Server.answer_reads D (q := .conversationFindOne id member) trivial s]
    exact .refl s
  | messageCreate id spelling senderId text now =>
    simp only [Server.answer] at h ⊢
    cases hcast : ObjectId.cast spelling with
    | none => exact .refl s
    | some c =>
      simp only [hcast, Server.createMessage] at h ⊢
      split at h
      · rename_i hinvalid
        rw [if_pos hinvalid]
        exact .refl s
      · rename_i hvalid
        rw [if_neg hvalid]
        split at h
        · exact h.elim
        · exact .refl s
  | _ => exact h.elim

/-! ### What a refused task has done -/

/-- An acknowledgement is the last thing that a send does. -/
theorem Sending.law_acknowledged {userId id : ObjectId} {payload : Value} {r : SocketAck}
    {before : Deeds} (d : Deed chatInterface Failure) :
    ¬ Sending.law userId id payload (.acted (.ack r) () :: before) d := by
  intro h
  rcases d with ⟨a, r⟩ | ⟨q, r⟩
  · cases a <;> simp_all [Sending.law, Sending.found, Sending.created, Sending.populated, Sending.Refused, Sending.announced]
  · cases q <;> simp_all [Sending.law, Sending.admitted, Sending.created, Sending.saved]

/-- Up to a refusal that no late failure has led to, nothing has been written. -/
theorem Sending.refused_writesNothing {userId id : ObjectId} {payload : Value} {before : Deeds}
    (hlawful : Lawful (Sending.law userId id payload) before) (hrefused : Sending.Refused before)
    (hsave : ∀ k m t e, .answered (.conversationSave k m t) (.error e) ∉ before)
    (hpopulate : ∀ u e, .answered (.messagePopulate u) (.error e) ∉ before) :
    ∀ d ∈ before, WritesNothing d := by
  have hadmitted : ∀ d ∈ Sending.admitted userId, WritesNothing d := by simp [Sending.admitted, WritesNothing]
  cases before with
  | nil => exact hrefused.elim
  | cons d rest =>
    obtain ⟨hlaw, -⟩ := hlawful
    rcases d with ⟨a, r⟩ | ⟨q, r⟩
    · cases a with
      | checkMessageRateLimit u =>
        obtain ⟨rfl, -⟩ := hlaw
        simp [WritesNothing]
      | _ => exact hrefused.elim
    · cases q with
      | conversationFindOne v u =>
        obtain ⟨rfl, -⟩ := hlaw
        exact List.forall_mem_cons.mpr ⟨trivial, hadmitted⟩
      | messageCreate k spelling u text t =>
        cases r with
        | ok m => exact hrefused.elim
        | error e =>
          obtain ⟨input, c, -, -, -, -, -, rfl⟩ := hlaw
          exact List.forall_mem_cons.mpr ⟨trivial, List.forall_mem_cons.mpr ⟨trivial,
            List.forall_mem_cons.mpr ⟨trivial, hadmitted⟩⟩⟩
      | conversationSave k m t =>
        cases r with
        | ok u => exact hrefused.elim
        | error e => exact absurd (.head _) (hsave k m t e)
      | messagePopulate u =>
        cases r with
        | ok sender => exact hrefused.elim
        | error e => exact absurd (.head _) (hpopulate u e)
      | _ => exact hrefused.elim

/-- A late failure comes after an insert. -/
theorem Sending.inserted_of_late {userId id : ObjectId} {payload : Value} {ds : Deeds}
    (hlawful : Lawful (Sending.law userId id payload) ds)
    (hlate : (∃ k m t e, .answered (.conversationSave k m t) (.error e) ∈ ds) ∨
      ∃ u e, .answered (.messagePopulate u) (.error e) ∈ ds) :
    ∃ k spelling u text t m, .answered (.messageCreate k spelling u text t) (.ok m) ∈ ds := by
  have hbelow : ∀ {later d before} (input : SendMessageInput) (c : Conversation) (t : Nat)
      (m : Message), ds = later ++ d :: before →
      (∃ new, before = new ++ Sending.created userId input id c t m) →
      ∃ k spelling u text t m, .answered (.messageCreate k spelling u text t) (.ok m) ∈ ds := by
    intro later d before input c t m hds hnew
    obtain ⟨new, rfl⟩ := hnew
    refine ⟨id, input.conversationId, userId, input.text, t, m, ?_⟩
    rw [hds]
    exact List.mem_append_right _ (.tail _ (List.mem_append_right _ (.head _)))
  rcases hlate with ⟨k, m, t, e, hmem⟩ | ⟨u, e, hmem⟩
  · obtain ⟨later, before, hds⟩ := List.append_of_mem hmem
    obtain ⟨input, c, t₀, m₀, -, -, -, hbefore⟩ := (hds ▸ hlawful).at.1
    exact hbelow input c t₀ m₀ hds ⟨[_], hbefore⟩
  · obtain ⟨later, before, hds⟩ := List.append_of_mem hmem
    obtain ⟨input, c, t₀, m₀, t', -, -, hbefore⟩ := (hds ▸ hlawful).at.1
    exact hbelow input c t₀ m₀ hds ⟨[_, _], hbefore⟩

theorem failsLate_iff {pid : Nat} {log : Log} : FailsLate pid log ↔
    (∃ k m t e, .answered (.conversationSave k m t) (.error e) ∈ deeds pid log) ∨
      ∃ u e, .answered (.messagePopulate u) (.error e) ∈ deeds pid log := by
  simp only [FailsLate, mem_deeds_answered]

/-- **When a refused message has left nothing behind**: exactly when neither the save nor
the lookup of its sender has failed. In any run, of any calls. -/
theorem refused_traceless_iff (D : Deployment) (s : Server) (moves : List (Move Call)) {pid : Nat}
    (hrefuses : Refuses pid ((chat D).run (Config.start s) moves).world.log) :
    Traceless D s moves pid ↔
      ¬ FailsLate pid ((chat D).run (Config.start s) moves).world.log := by
  have hbehaved := behaved_run D s moves
  have hpresent := (Present.start s).run (chat D) moves
  obtain ⟨socket, args, id, response, harrived, hack, hfailed⟩ := hrefuses
  obtain ⟨task, hentry⟩ := hpresent pid _ harrived
  have hlawful : Lawful (Sending.law socket.userId id (args.getD 0 .undefined)) _ :=
    hbehaved.lawful pid _ hentry
  rw [failsLate_iff]
  constructor
  · intro htraceless hlate
    -- The insert that came before the failure has changed the messages.
    obtain ⟨k, spelling, u, text, t, m, hinserted⟩ := Sending.inserted_of_late hlawful hlate
    obtain ⟨above, below, hlog⟩ := List.append_of_mem (mem_deeds_answered.mp hinserted)
    obtain ⟨front, hprefix, -, hanswer⟩ := (chat D).run_answer hlog
    have hsame := htraceless front _ hprefix rfl
    obtain ⟨-, -, hinsert⟩ := Server.messageCreate_answer (D := D) (congrArg Prod.fst hanswer)
    have hdocs : ((chat D).answer (.messageCreate k spelling u text t)
      ((chat D).run (Config.start s) front).world.state).2.messages.docs = _ :=
        (Collection.insert_eq_some hinsert).1
    rw [hanswer, hsame.messages] at hdocs
    simpa using congrArg List.length hdocs
  · intro hearly front m hprefix hown
    obtain ⟨hsave, hpopulate⟩ := not_or.mp hearly
    -- All that the task has done, the report last.
    obtain ⟨later, before, hdeeds⟩ := List.append_of_mem (mem_deeds_acted.mpr hack)
    rw [hdeeds] at hlawful hsave hpopulate
    obtain ⟨hlaw, hbefore⟩ := hlawful.at
    obtain rfl := hlawful.last Sending.law_acknowledged
    have hrefused : Sending.Refused before := by
      rcases hlaw with ⟨-, -, h⟩ | ⟨_, _, _, _, _, _, _, -, rfl, -⟩
      · exact h
      · cases hfailed
    have hnothing := Sending.refused_writesNothing hbefore hrefused
      (fun k m t e h => hsave ⟨k, m, t, e, .tail _ h⟩) fun u e h => hpopulate ⟨u, e, .tail _ h⟩
    rw [(chat D).run_append]
    rcases step_sameData (D := D) ((chat D).run (Config.start s) front) m with
      hsame | ⟨pid', q, rfl, hw⟩
    · exact hsame
    · obtain rfl : pid' = pid := hown
      rw [run, run, hw]
      apply WritesNothing.sameData
      obtain ⟨rest, hrest⟩ := hprefix
      obtain ⟨new, hnew⟩ := (chat D).run_log ((chat D).run (Config.start s) (front ++ [.answer pid'])) rest
      rw [← (chat D).run_append, hrest, (chat D).run_append, run, run, hw] at hnew
      have hdeed : .answered q (Server.answer D q ((chat D).run (Config.start s) front).world.state).1 ∈
          deeds pid' ((chat D).run (Config.start s) moves).world.log := by
        rw [mem_deeds_answered, hnew]
        exact List.mem_append_right _ (.head _)
      rw [hdeeds] at hdeed
      rcases List.mem_cons.mp hdeed with heq | hdeed
      · cases heq
      · exact hnothing _ hdeed

end

/-! A message whose save fails, and the same text sent again. -/

def retryServer : Server := .boot .empty
  (.single ⟨.ending 10, .oneToOne, none, [.ending 1, .ending 2], none, 0, 0⟩) .empty 0

def retryingSocket : Socket := ⟨.ofChar 'a', .ending 1, "ann".toList⟩

def sendingHi (id : ObjectId) : Move Call :=
  .arrive (.event retryingSocket .messageSend
    [.object [("conversationId", .string (ObjectId.ending 10).toString),
      ("text", .string "hi".toList)], .function] id)

def retryMoves : List (Move Call) :=
  [.arrive (.connect retryingSocket), sendingHi (.ending 4), .answer 1, .resume 1, .answer 1,
    .resume 1, .fail 1, .resume 1, sendingHi (.ending 5), .answer 2, .resume 2, .answer 2,
    .resume 2, .answer 2, .resume 2, .answer 2, .resume 2]

def retryRun : Config chatInterface Server Failure Call Response :=
  (chat .default).run (Config.start retryServer) retryMoves

theorem retry_refuses : Refuses 1 retryRun.world.log := by
  obtain ⟨response, hfailed, hack⟩ : ∃ response : SocketAck, response.success = false ∧
      retryRun.world.log[10]? = some (.acted 1 (.ack response) ()) := ⟨_, rfl, rfl⟩
  exact ⟨_, _, _, response, List.mem_of_getElem? (i := 17) rfl, List.mem_of_getElem? hack, hfailed⟩

theorem refused_traceless_iff_retry :
    Traceless .default retryServer retryMoves 1 ↔ ¬ FailsLate 1 retryRun.world.log :=
  refused_traceless_iff .default retryServer retryMoves retry_refuses

/-- The first attempt is reported as failed, but has stored its message; the second stores
it again. -/
theorem retry_stores_twice : Refuses 1 retryRun.world.log ∧
    ¬ Traceless .default retryServer retryMoves 1 ∧
    retryRun.world.state.messages.docs.map Message.text = ["hi".toList, "hi".toList] := by
  refine ⟨retry_refuses, fun h => ?_, by decide +kernel⟩
  have hsame := (h (retryMoves.take 4) (.answer 1) ⟨retryMoves.drop 5, rfl⟩ rfl).messages
  have hlength := congrArg (fun messages => messages.docs.length) hsame
  revert hlength
  decide +kernel

end RealtimeChat
