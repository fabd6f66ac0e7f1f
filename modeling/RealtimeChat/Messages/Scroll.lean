import RealtimeChat.Messages.History

/-! Scrolling back while others write.

A client follows the cursors from page to page; between its requests new messages are
stored. They are no earlier than what was there, so they are never below a cursor: the
pages are those of the messages that the first request found (`scroll_exact`). -/
namespace RealtimeChat
open Data (Text Descending)
open Async Async.System

/-- What a page is cut off at: the `createdAt` of its last message, if there is more. -/
def PaginatedMessages.instant (page : PaginatedMessages) : Option Nat :=
  if page.hasMore then page.messages.getLast?.map (·.message.createdAt) else none

/-- The messages of the conversation grow, by messages that are no earlier than any that
was there at first. `states k` is the state on which the request number `k` is answered. -/
def Growing (id : ObjectId) (states : Nat → Server) : Prop :=
  ∀ k, ∃ new, messagesOf (states (k + 1)) id = messagesOf (states k) id ++ new ∧
    ∀ m ∈ new, ∀ old ∈ messagesOf (states 0) id, old.createdAt ≤ m.createdAt

section
variable (D : Deployment) (conversationId : Text) (limit : Nat) (states : Nat → Server)

/-- The pages from the request number `k` on, each request following the `nextCursor` before
it. `none` if `fuel` requests are not enough. -/
def scroll : Nat → Nat → Option Text → Option (List PaginatedMessages)
  | 0, _, _ => none
  | fuel + 1, k, before =>
    match ((chat D).alone (getMessageHistory conversationId limit before) (states k)).1 with
    | .ok page =>
      if page.hasMore then (scroll fuel (k + 1) page.nextCursor).map (page :: ·) else some [page]
    | .error _ => none

end

/-- What a client relies on, scrolling back through the messages `old`. -/
structure Scrolls (limit : Nat) (old : List Message) (pages : List PaginatedMessages) : Prop where
  disjoint : pages.Pairwise fun p q =>
    ∀ a ∈ p.messages, ∀ b ∈ q.messages, b.message.id ≠ a.message.id
  ordered : pages.Pairwise fun p q =>
    ∀ a ∈ p.messages, ∀ b ∈ q.messages, b.message.createdAt < a.message.createdAt
  cursor : ∀ p ∈ pages, p.nextCursor = p.instant.map IsoDate.toISOString
  decreasing : (pages.filterMap (·.instant)).Pairwise (· > ·)
  accepted : ∀ p ∈ pages, ∀ cursor ∈ p.nextCursor, paginationQuerySchema ⟨limit, some cursor⟩ = []
  parsed : ∀ p ∈ pages, ∀ t ∈ p.instant, IsoDate.parse (IsoDate.toISOString t) = some (t : Int)
  complete : ∀ m ∈ old, m.createdAt ∉ pages.filterMap (·.instant) →
    ∃ p ∈ pages, ∃ populated ∈ p.messages, populated.message = m

section
variable {D : Deployment} {conversationId : Text} {limit : Nat} {states : Nat → Server}
  {id : ObjectId}

/-- Below a cursor that is no later than any old message, nothing is new. -/
theorem matching_grown (hgrow : Growing id states) {k : Nat} {last : Message}
    (hlast : last ∈ messagesOf (states 0) id) :
    matching (states (k + 1)) id (some (last.createdAt : Int)) =
      matching (states k) id (some (last.createdAt : Int)) := by
  have hsplit : ∀ s : Server, matching s id (some (last.createdAt : Int)) =
      (messagesOf s id).filter fun m => decide ((m.createdAt : Int) < last.createdAt) := by
    intro s
    rw [messagesOf, List.filter_filter]
    apply List.filter_congr
    intro m _
    rw [Option.all_some, Bool.and_comm]
  obtain ⟨new, hnew, hlater⟩ := hgrow k
  rw [hsplit, hsplit, hnew, List.filter_append]
  have hnone : new.filter (fun m => decide ((m.createdAt : Int) < last.createdAt)) = [] := by
    apply List.filter_eq_nil_iff.mpr
    intro m hm hlt
    have hle := hlater m hm last hlast
    have := of_decide_eq_true hlt
    omega
  rw [hnone, List.append_nil]

/-- Requesting page after page cuts the pages of what the first request matches. -/
theorem scroll_pages (hid : ObjectId.cast conversationId = some id) (hlimit : 0 < limit)
    (hgrow : Growing id states)
    (hdates : ∀ m ∈ messagesOf (states 0) id, m.createdAt < IsoDate.endOfYear9999) {fuel : Nat}
    {l : List Message} {lists : List (List Message)}
    (h : D.byCreation.pages limit fuel l = some lists) {k : Nat} {before : Option Text}
    {cursor : Option Int} (hcursor : cursorOf before = cursor.map some)
    (hl : l = matching (states k) id cursor) (hold : ∀ m ∈ l, m ∈ messagesOf (states 0) id) :
    ∃ pages, scroll D conversationId limit states fuel k before = some pages ∧
      pages.map (fun p => p.messages.map (·.message)) = lists ∧
      pages.filterMap (·.instant) = (Descending.ends lists).map Message.createdAt ∧
      ∀ p ∈ pages, p.nextCursor = p.instant.map IsoDate.toISOString := by
  induction h using Descending.pages_induction hlimit generalizing k before cursor with
  | last fuel l h hlast =>
    subst hl
    refine ⟨[⟨(D.byCreation.sort (matching (states k) id cursor)).map (populated (states k)),
      false, none⟩], ?_, ?_, rfl, ?_⟩
    · rw [scroll, getMessageHistory_alone hid hcursor, pageOf_last hlast]
      rfl
    · rw [List.map_singleton, map_populated]
    · intro p hp
      rw [List.mem_singleton.mp hp]
      rfl
  | cut fuel l front last back rest h hcut hmore hrest ih =>
    subst hl
    have hlast : last ∈ matching (states k) id cursor := by
      apply (D.byCreation.perm _).subset
      rw [hcut.sort]
      simp
    have hback : back ≠ [] := by
      intro hnil
      rw [hcut.sort, hnil, List.append_nil, hcut.length] at hmore
      exact Nat.lt_irrefl _ hmore
    have hdate : last.createdAt ≤ 8640000000000000 := by
      have hlt := hdates last (hold last hlast)
      rw [IsoDate.endOfYear9999] at hlt
      omega
    have hpage := pageOf_more (f := populated (states k)) (fun _ => rfl) hcut.length hback
    -- The rest of the walk goes on below the cursor, where nothing has been added.
    obtain ⟨pages, hpages, hmessages, hinstants, hcursors⟩ := ih (k := k + 1)
      (cursorOf_toISOString hdate)
      (by rw [matching_grown hgrow (hold last hlast), matching_below hlast])
      fun m hm => hold m (List.mem_filter.mp hm).1
    refine ⟨⟨(front ++ [last]).map (populated (states k)), true,
      some (IsoDate.toISOString last.createdAt)⟩ :: pages, ?_, ?_, ?_, ?_⟩
    · rw [scroll, getMessageHistory_alone hid hcursor, hcut.sort, hpage]
      simp only [if_true, hpages, Option.map_some]
    · rw [List.map_cons, map_populated, hmessages]
    · have hinstant : PaginatedMessages.instant ⟨(front ++ [last]).map (populated (states k)), true,
          some (IsoDate.toISOString last.createdAt)⟩ = some last.createdAt := by
        simp [PaginatedMessages.instant, populated]
      rw [List.filterMap_cons_some hinstant, hinstants, Descending.ends_cons
        (Descending.pages_ne_nil hlimit hrest), List.getLast?_append, List.getLast?_singleton]
      rfl
    · intro p hp
      rcases List.mem_cons.mp hp with rfl | hp
      · simp [PaginatedMessages.instant, populated]
      · exact hcursors p hp

/-- What the server prints as a cursor, up to the year 9999, it accepts. -/
theorem paginationQuery_accepts (h1 : 1 ≤ limit) (h100 : limit ≤ 100) {t : Nat}
    (ht : t < IsoDate.endOfYear9999) :
    paginationQuerySchema ⟨limit, some (IsoDate.toISOString t)⟩ = [] := by
  have hread : (IsoDate.read (IsoDate.toISOString t)).isSome = true := by
    have hdate : t ≤ 8640000000000000 := by
      rw [IsoDate.endOfYear9999] at ht
      omega
    have hparse := IsoDate.parse_toISOString t hdate
    rw [IsoDate.parse] at hparse
    obtain ⟨c, hc, _⟩ := Option.map_eq_some_iff.mp hparse
    rw [hc]
    rfl
  have hdatetime : isDatetime (IsoDate.toISOString t) = true := by
    rw [isDatetime, IsoDate.toISOString_head t ht, hread]
    rfl
  have hlow : ¬ (limit : Int) < 1 := by omega
  have hhigh : ¬ 100 < (limit : Int) := by omega
  simp only [paginationQuerySchema, hlow, hhigh, Option.all_some, hdatetime, if_true, if_false]
  rfl

/-- **Scrolling back while others write.** However the messages of a conversation grow between
the requests, by none that is earlier than what was there first, the walk ends in time, its
pages do not overlap and go back in time, its cursors decrease, are accepted and read back
as what they stand for, and every message that was there is on a page, but for those
created at a cursor. -/
theorem scroll_exact (D : Deployment) (conversationId : Text) (limit : Nat)
    (states : Nat → Server) (id : ObjectId) (hid : ObjectId.cast conversationId = some id)
    (h1 : 1 ≤ limit) (h100 : limit ≤ 100) (hgrow : Growing id states)
    (hdates : ∀ m ∈ messagesOf (states 0) id, m.createdAt < IsoDate.endOfYear9999) :
    ∃ pages, scroll D conversationId limit states ((messagesOf (states 0) id).length / limit + 1) 0
        none = some pages ∧
      Scrolls limit (messagesOf (states 0) id) pages := by
  obtain ⟨lists, hlists⟩ := Descending.exists_pages (D := D.byCreation) h1
    (Nat.lt_succ_self ((messagesOf (states 0) id).length / limit))
  have hfirst : cursorOf none = Option.map some (none : Option Int) := rfl
  obtain ⟨pages, hpages, hmessages, hinstants, hcursors⟩ :=
    scroll_pages hid h1 hgrow hdates hlists hfirst matching_none.symm fun m hm => hm
  have hshown : ∀ p ∈ pages, ∀ a ∈ p.messages, a.message ∈ messagesOf (states 0) id := by
    intro p hp a ha
    refine Descending.mem_of_pages h1 hlists (p.messages.map (·.message)) ?_ _
      (List.mem_map_of_mem ha)
    rw [← hmessages]
    exact List.mem_map_of_mem hp
  have hordered : pages.Pairwise fun p q =>
      ∀ a ∈ p.messages, ∀ b ∈ q.messages, b.message.createdAt < a.message.createdAt := by
    have hlistsOrdered := Descending.pages_ordered h1 hlists
    rw [← hmessages, List.pairwise_map] at hlistsOrdered
    refine hlistsOrdered.imp fun {p q} h (a : PopulatedMessage) ha (b : PopulatedMessage) hb => ?_
    exact h a.message (List.mem_map_of_mem ha) b.message (List.mem_map_of_mem hb)
  have hinstant : ∀ p ∈ pages, ∀ t ∈ p.instant, t < IsoDate.endOfYear9999 := by
    intro p hp t ht
    have hmem : t ∈ pages.filterMap (·.instant) := List.mem_filterMap.mpr ⟨p, hp, ht⟩
    rw [hinstants] at hmem
    obtain ⟨m, hm, rfl⟩ := List.mem_map.mp hmem
    obtain ⟨page, hpage, hin⟩ := Descending.mem_of_ends hm
    exact hdates m (Descending.mem_of_pages h1 hlists page hpage m hin)
  refine ⟨pages, hpages, ?_, hordered, hcursors, ?_, ?_, ?_, ?_⟩
  · refine hordered.imp_of_mem fun hp hq h a ha b hb heq => ?_
    have hsame := (states 0).messages.eq_of_key (List.mem_of_mem_filter (hshown _ hq b hb))
      (List.mem_of_mem_filter (hshown _ hp a ha)) heq
    have hlt := h a ha b hb
    rw [hsame] at hlt
    exact Nat.lt_irrefl _ hlt
  · rw [hinstants, List.pairwise_map]
    exact Descending.ends_decreasing (Descending.pages_ordered h1 hlists)
  · intro p hp cursor hcursor
    rw [hcursors p hp] at hcursor
    obtain ⟨t, ht, rfl⟩ := Option.mem_map.mp hcursor
    exact paginationQuery_accepts h1 h100 (hinstant p hp t ht)
  · intro p hp t ht
    apply IsoDate.parse_toISOString
    have hlt := hinstant p hp t ht
    rw [IsoDate.endOfYear9999] at hlt
    omega
  · intro m hm hcut
    rcases Descending.pages_complete h1 hlists hm with ⟨page, hpage, hin⟩ | ⟨b, hb, heq⟩
    · rw [← hmessages] at hpage
      obtain ⟨p, hp, rfl⟩ := List.mem_map.mp hpage
      obtain ⟨a, ha, rfl⟩ := List.mem_map.mp hin
      exact ⟨p, hp, a, ha, rfl⟩
    · rw [hinstants] at hcut
      exact absurd (List.mem_map.mpr ⟨b, hb, heq.symm⟩) hcut

end

/-! Two messages, and a third that is stored while a client scrolls back, one at a time. -/

def messageAt (d createdAt : Nat) : Message :=
  ⟨.ending d, .ending 3, .ending 1, "hi".toList, .sent, createdAt, createdAt⟩

def scrollServer (messages : Messages) : Server :=
  .boot .empty (.single ⟨.ending 3, .oneToOne, none, [.ending 1, .ending 2], none, 0, 0⟩) messages 9

/-- The two messages, and how the third joins them after the first request. -/
def busyStates : Nat → Server
  | 0 => scrollServer ⟨[messageAt 4 7, messageAt 5 8], by decide⟩
  | _ + 1 => scrollServer ⟨[messageAt 4 7, messageAt 5 8, messageAt 6 9], by decide⟩

theorem scroll_exact_busy :
    ∃ pages, scroll .default (ObjectId.ending 3).toString 1 busyStates
        ((messagesOf (busyStates 0) (.ending 3)).length / 1 + 1) 0 none = some pages ∧
      Scrolls 1 (messagesOf (busyStates 0) (.ending 3)) pages := by
  have hgrow : Growing (.ending 3) busyStates := by
    intro k
    cases k with
    | zero => exact ⟨[messageAt 6 9], by decide, by decide⟩
    | succ k =>
      refine ⟨[], by rw [List.append_nil]; rfl, ?_⟩
      intro m hm
      cases hm
  exact scroll_exact .default _ 1 busyStates (.ending 3) (ObjectId.cast_toString _) (by decide)
    (by decide) hgrow (by decide)

/-- Two messages of the year 10000, which take a sign and six digits. -/
def lateStates : Nat → Server := fun _ =>
  scrollServer ⟨[messageAt 4 253402300800000, messageAt 5 253402300800001], by decide⟩

theorem lateCursor_refused : ¬ ∀ (D : Deployment) (conversationId : Text) (limit : Nat)
    (states : Nat → Server) (id : ObjectId), ObjectId.cast conversationId = some id → 1 ≤ limit →
    limit ≤ 100 → Growing id states →
    ∃ pages, scroll D conversationId limit states ((messagesOf (states 0) id).length / limit + 1) 0
        none = some pages ∧
      Scrolls limit (messagesOf (states 0) id) pages := by
  intro h
  have hgrow : Growing (.ending 3) lateStates := by
    intro k
    refine ⟨[], by rw [List.append_nil]; rfl, ?_⟩
    intro m hm
    cases hm
  obtain ⟨pages, hpages, hscrolls⟩ := h .default (ObjectId.ending 3).toString 1 lateStates (.ending 3)
    (ObjectId.cast_toString _) (by decide) (by decide) hgrow
  have hcursors : (scroll .default (ObjectId.ending 3).toString 1 lateStates
      ((messagesOf (lateStates 0) (.ending 3)).length / 1 + 1) 0 none).map
        (List.map PaginatedMessages.nextCursor) =
      some [some "+010000-01-01T00:00:00.001Z".toList, none] := by
    decide +kernel
  rw [hpages, Option.map_some, Option.some.injEq] at hcursors
  have hmem : some "+010000-01-01T00:00:00.001Z".toList ∈ pages.map PaginatedMessages.nextCursor := by
    rw [hcursors]
    exact List.mem_cons_self
  obtain ⟨p, hp, hcursor⟩ := List.mem_map.mp hmem
  exact absurd (hscrolls.accepted p hp _ hcursor) (by decide +kernel)

end RealtimeChat
