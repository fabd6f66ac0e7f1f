import RealtimeChat.Client.UseConversations

/-! The users that a search shows (`frontend-ui/src/components/NewConversationModal.tsx`).

An edit of the search field clears the timer of the last one and sets another; a timer that
expires sends a request. A request that has been sent is not called back, and the modal shows
what each brings: an answer to an older search that comes late is shown in place of that to the
search in the field (`showsCurrent_iff`). -/
namespace RealtimeChat
open Data (Text trim)

/-- What `listUsers` resolves to, or the message that it throws. -/
abbrev UsersResponse := Except Text (List ClientUser)

structure NewConversationModal where
  search : Text
  users : List ClientUser
  selectedUserId : Option ObjectId
  loadingUsers : Bool
  error : Option Text
  /-- The search that the timer was set for, until it is cleared or expires. -/
  timer : Option Text

namespace NewConversationModal

/-- The effect has run once. -/
def mounted : NewConversationModal := ⟨[], [], none, false, none, some []⟩

/-- `onChange`. The effect runs again if the search is another. -/
def onChange (text : Text) (m : NewConversationModal) : NewConversationModal :=
  {m with
    search := text
    selectedUserId := none
    timer := if text = m.search then m.timer else some text}

def onResponse (response : UsersResponse) (m : NewConversationModal) : NewConversationModal :=
  match response with
  | .ok users => {m with users, loadingUsers := false}
  | .error message => {m with error := some message, loadingUsers := false}

/-- The users in the list, where it is not "Searching…" that stands there. -/
def shown (m : NewConversationModal) : Option (List ClientUser) :=
  if m.loadingUsers then none else some m.users

end NewConversationModal

/-- `search.trim() || undefined` -/
def searchParam (search : Text) : Option Text :=
  if trim search = [] then none else some (trim search)

/-- The modal, with the `search` parameters of the requests that have been sent, in order, and
the responses that have come, latest first. -/
structure UserSearch where
  modal : NewConversationModal
  sent : List (Option Text)
  responses : List (Nat × UsersResponse)

inductive SearchMove where
  | onChange (text : Text)
  | select (userId : ObjectId)
  | expire
  | respond (request : Nat) (response : UsersResponse)

namespace UserSearch

def opened : UserSearch := ⟨.mounted, [], []⟩

def Answered (s : UserSearch) (request : Nat) : Prop := request ∈ s.responses.map Prod.fst

instance (s : UserSearch) (request : Nat) : Decidable (s.Answered request) :=
  inferInstanceAs (Decidable (request ∈ s.responses.map Prod.fst))

def step (s : UserSearch) : SearchMove → UserSearch
  | .onChange text => {s with modal := s.modal.onChange text}
  | .select userId => {s with modal.selectedUserId := some userId}
  | .expire =>
    match s.modal.timer with
    | none => s
    | some search =>
      {s with modal.loadingUsers := true, modal.timer := none, sent := s.sent ++ [searchParam search]}
  | .respond request response =>
    if request < s.sent.length ∧ ¬ s.Answered request then
      {s with
        modal := s.modal.onResponse response
        responses := (request, response) :: s.responses}
    else s

def run (moves : List SearchMove) : UserSearch := moves.foldl step opened

/-- Nothing is pending, no timer and no request. -/
structure Settled (s : UserSearch) : Prop where
  timer : s.modal.timer = none
  requests : ∀ request < s.sent.length, s.Answered request

/-- The request for the search in the field, the last where several were sent for it. -/
structure IsCurrent (s : UserSearch) (request : Nat) : Prop where
  search : s.sent[request]? = some (searchParam s.modal.search)
  last : ∀ other : Nat, s.sent[other]? = some (searchParam s.modal.search) → other ≤ request

/-- What the request for the search in the field has brought, if it has brought users, is what
is shown. -/
def ShowsCurrent (s : UserSearch) : Prop :=
  ∀ request users, s.IsCurrent request → (request, .ok users) ∈ s.responses → s.modal.shown = some users

def Failed (e : Nat × UsersResponse) : Prop := ∃ message, e.2 = .error message

/-- An older request has brought other users after the current one, and none has since. -/
def Overwritten (s : UserSearch) : Prop :=
  ∃ request users later older users' earlier, s.IsCurrent request ∧
    s.responses = later ++ (older, .ok users') :: earlier ∧ (∀ e ∈ later, Failed e) ∧
    (request, .ok users) ∈ earlier ∧ older < request ∧ users' ≠ users

/-! ### What the modal shows -/

/-- The users that have come last. -/
def lastUsers (responses : List (Nat × UsersResponse)) : Option (List ClientUser) :=
  responses.findSome? fun e => e.2.toOption

theorem lastUsers_eq_some {responses : List (Nat × UsersResponse)} {users : List ClientUser} :
    lastUsers responses = some users ↔ ∃ later request earlier,
      responses = later ++ (request, .ok users) :: earlier ∧ ∀ e ∈ later, Failed e := by
  have hfailed : ∀ e : Nat × UsersResponse, e.2.toOption = none ↔ Failed e := by
    intro e
    rcases e with ⟨request, message | users⟩
    · exact iff_of_true rfl ⟨message, rfl⟩
    · refine iff_of_false (by simp [Except.toOption]) fun h => ?_
      obtain ⟨message, h⟩ := h
      cases h
  rw [lastUsers, List.findSome?_eq_some_iff]
  constructor
  · intro h
    obtain ⟨later, ⟨request, response⟩, earlier, rfl, hsome, hnone⟩ := h
    cases response with
    | error message => cases hsome
    | ok users =>
      cases hsome
      exact ⟨later, request, earlier, rfl, fun e he => (hfailed e).mp (hnone e he)⟩
  · intro h
    obtain ⟨later, request, earlier, rfl, hnone⟩ := h
    exact ⟨later, _, earlier, rfl, rfl, fun e he => (hfailed e).mpr (hnone e he)⟩

theorem exists_lastUsers {responses : List (Nat × UsersResponse)} {request : Nat}
    {users : List ClientUser} (h : (request, .ok users) ∈ responses) :
    ∃ users', lastUsers responses = some users' := by
  cases hlast : lastUsers responses with
  | some users' => exact ⟨users', rfl⟩
  | none => cases List.findSome?_eq_none_iff.mp hlast _ h

structure Searching (s : UserSearch) : Prop where
  timer : ∀ search, s.modal.timer = some search → search = s.modal.search
  current : s.modal.timer = none → s.sent.getLast? = some (searchParam s.modal.search)
  users : s.modal.users = (lastUsers s.responses).getD []
  loading : s.modal.loadingUsers = true → ∃ request < s.sent.length, ¬ s.Answered request
  sent : ∀ request, s.Answered request → request < s.sent.length
  once : (s.responses.map Prod.fst).Nodup

section
variable {s : UserSearch}

theorem Searching.opened : Searching opened where
  timer search h := (Option.some.inj h).symm
  current h := by cases h
  users := rfl
  loading h := by cases h
  sent request h := by cases h
  once := .nil

theorem Searching.onChange (h : Searching s) (text : Text) : Searching (s.step (.onChange text)) := by
  by_cases hsame : text = s.modal.search
  · subst hsame
    refine ⟨?_, ?_, h.users, h.loading, h.sent, h.once⟩
    · simpa [step, NewConversationModal.onChange] using h.timer
    · simpa [step, NewConversationModal.onChange] using h.current
  · refine ⟨?_, ?_, h.users, h.loading, h.sent, h.once⟩
    · simp [step, NewConversationModal.onChange, hsame]
    · simp [step, NewConversationModal.onChange, hsame]

theorem Searching.expire (h : Searching s) : Searching (s.step .expire) := by
  cases htimer : s.modal.timer with
  | none =>
    rw [show s.step .expire = s by simp [step, htimer]]
    exact h
  | some search =>
    obtain rfl := h.timer search htimer
    simp only [step, htimer]
    refine ⟨by simp, fun _ => by simp, h.users, fun _ => ⟨s.sent.length, by simp, ?_⟩, ?_, h.once⟩
    · exact fun hanswered => absurd (h.sent _ hanswered) (Nat.lt_irrefl _)
    · intro request hanswered
      have hlt := h.sent request hanswered
      simp only [List.length_append, List.length_singleton]
      omega

theorem Searching.respond (h : Searching s) (request : Nat) (response : UsersResponse) :
    Searching (s.step (.respond request response)) := by
  simp only [step]
  split
  · rename_i hpending
    obtain ⟨hsent, hnew⟩ := hpending
    refine ⟨?_, ?_, ?_, ?_, ?_, ?_⟩
    · cases response <;> exact h.timer
    · cases response <;> exact h.current
    · cases response with
      | error message => exact h.users
      | ok users => rfl
    · cases response <;> simp [NewConversationModal.onResponse]
    · intro other hanswered
      rcases List.mem_cons.mp hanswered with rfl | hanswered
      · exact hsent
      · exact h.sent other hanswered
    · exact List.nodup_cons.mpr ⟨hnew, h.once⟩
  · exact h

theorem Searching.step (h : Searching s) (move : SearchMove) : Searching (s.step move) := by
  cases move with
  | onChange text => exact h.onChange text
  | select userId => exact ⟨h.timer, h.current, h.users, h.loading, h.sent, h.once⟩
  | expire => exact h.expire
  | respond request response => exact h.respond request response

theorem Searching.after (h : Searching s) (moves : List SearchMove) :
    Searching (moves.foldl UserSearch.step s) := by
  induction moves generalizing s with
  | nil => exact h
  | cons move rest ih => exact ih (h.step move)

/-- What holds of every modal. -/
theorem searching_run (moves : List SearchMove) : Searching (run moves) := .after .opened moves

/-- Without a timer, the request for the search in the field is the last that was sent. -/
theorem Searching.isCurrent_iff (h : Searching s) (htimer : s.modal.timer = none) {request : Nat} :
    s.IsCurrent request ↔ s.sent.length = request + 1 := by
  have hlast := h.current htimer
  rw [List.getLast?_eq_getElem?] at hlast
  constructor
  · intro hcurrent
    have hlt := (List.getElem?_eq_some_iff.mp hcurrent.search).1
    have hle := hcurrent.last _ hlast
    omega
  · intro hlength
    rw [hlength, Nat.add_sub_cancel] at hlast
    refine ⟨hlast, fun other hother => ?_⟩
    have hlt := (List.getElem?_eq_some_iff.mp hother).1
    omega

/-- Once all is settled, there is a request for the search in the field, and it has been answered. -/
theorem Searching.current_answered (h : Searching s) (hsettled : s.Settled) :
    ∃ request, s.IsCurrent request ∧ s.Answered request := by
  have hlast := h.current hsettled.timer
  have hpos : 0 < s.sent.length := by
    rcases hsent : s.sent with _ | ⟨first, rest⟩
    · rw [hsent] at hlast
      cases hlast
    · exact Nat.succ_pos _
  refine ⟨s.sent.length - 1, (h.isCurrent_iff hsettled.timer).mpr ?_, hsettled.requests _ ?_⟩ <;> omega

/-- Once all is settled, the users that came last are shown. -/
theorem Searching.shown (h : Searching s) (hsettled : s.Settled) :
    s.modal.shown = some ((lastUsers s.responses).getD []) := by
  have hidle : s.modal.loadingUsers = false := by
    by_contra hloading
    obtain ⟨request, hsent, hpending⟩ := h.loading (Bool.eq_true_of_not_eq_false hloading)
    exact hpending (hsettled.requests request hsent)
  rw [NewConversationModal.shown, hidle, ← h.users]
  rfl

/-- A request is answered once. -/
theorem Searching.older_ne (h : Searching s) {later earlier : List (Nat × UsersResponse)}
    {older request : Nat} {response response' : UsersResponse}
    (hresponses : s.responses = later ++ (older, response) :: earlier)
    (hmem : (request, response') ∈ earlier) : older ≠ request := by
  have honce := h.once
  rw [hresponses, List.map_append, List.map_cons] at honce
  have hnew := (List.nodup_cons.mp (List.nodup_append.mp honce).2.1).1
  rintro rfl
  exact hnew (List.mem_map.mpr ⟨_, hmem, rfl⟩)

theorem Overwritten.not_showsCurrent (hover : s.Overwritten) (h : Searching s) (hsettled : s.Settled) :
    ¬ s.ShowsCurrent := by
  intro hshows
  obtain ⟨request, users, later, older, users', earlier, hcurrent, hresponses, hfailed, hmem, -, hne⟩ :=
    hover
  have hshown := hshows request users hcurrent
    (hresponses ▸ List.mem_append_right _ (List.mem_cons_of_mem _ hmem))
  rw [h.shown hsettled, lastUsers_eq_some.mpr ⟨later, older, earlier, hresponses, hfailed⟩] at hshown
  exact hne (Option.some.inj hshown)

theorem Searching.showsCurrent (h : Searching s) (hsettled : s.Settled) (hkept : ¬ s.Overwritten) :
    s.ShowsCurrent := by
  intro request users hcurrent hmem
  obtain ⟨users', hlast⟩ := exists_lastUsers hmem
  rw [h.shown hsettled, hlast]
  obtain ⟨later, older, earlier, hresponses, hfailed⟩ := lastUsers_eq_some.mp hlast
  have hanswered : s.Answered older := List.mem_map.mpr ⟨(older, .ok users'), by simp [hresponses], rfl⟩
  rw [hresponses] at hmem
  rcases List.mem_append.mp hmem with hlater | hmem
  · obtain ⟨message, h⟩ := hfailed _ hlater
    cases h
  · rcases List.mem_cons.mp hmem with heq | hearlier
    · cases heq
      rfl
    · by_contra hne
      have hother := h.older_ne hresponses hearlier
      have hlt := h.sent older hanswered
      have hlength := (h.isCurrent_iff hsettled.timer).mp hcurrent
      exact hkept ⟨request, users, later, older, users', earlier, hcurrent, hresponses, hfailed,
        hearlier, by omega, fun h => hne (congrArg some h)⟩

end

/-- **When the users shown are those that the search asks for**, once nothing is pending: unless an
older request has brought others after it. -/
theorem showsCurrent_iff (moves : List SearchMove) (hsettled : (run moves).Settled) :
    (run moves).ShowsCurrent ↔ ¬ (run moves).Overwritten :=
  ⟨fun hshows hover => hover.not_showsCurrent (searching_run moves) hsettled hshows,
    (searching_run moves).showsCurrent hsettled⟩

/-! A search is typed on, and one is taken back, with a request each time. -/

def abe : ClientUser := ⟨.ending 1, "abe".toList, "abe@chat.io".toList, .offline, []⟩

def ada : ClientUser := ⟨.ending 2, "ada".toList, "ada@chat.io".toList, .offline, []⟩

/-- The answer for `a` comes after that for `ad`, which is in the field. -/
def typedOn : List SearchMove :=
  [.onChange "a".toList, .expire, .onChange "ad".toList, .expire, .respond 1 (.ok [ada]),
    .respond 0 (.ok [abe, ada])]

/-- The first answer for `a` comes last; by the second, Ada has signed up. -/
def takenBack : List SearchMove :=
  [.onChange "a".toList, .expire, .onChange "ad".toList, .expire, .onChange "a".toList, .expire,
    .respond 1 (.ok [ada]), .respond 2 (.ok [abe, ada]), .respond 0 (.ok [abe])]

theorem typedOn_settled : (run typedOn).Settled := ⟨rfl, by decide⟩

theorem takenBack_settled : (run takenBack).Settled := ⟨rfl, by decide⟩

theorem showsCurrent_iff_typedOn : (run typedOn).ShowsCurrent ↔ ¬ (run typedOn).Overwritten :=
  showsCurrent_iff typedOn typedOn_settled

/-- In both, what is shown is what the first request has brought; in the second, its search is that
in the field. -/
theorem older_shown :
    ((run typedOn).Settled ∧ ¬ (run typedOn).ShowsCurrent) ∧
      (run takenBack).Settled ∧ (run takenBack).responses.head? = some (0, .ok [abe]) ∧
        (run takenBack).sent[0]? = some (searchParam (run takenBack).modal.search) ∧
        ¬ (run takenBack).ShowsCurrent := by
  refine ⟨⟨typedOn_settled, fun h => ?_⟩, takenBack_settled, rfl, rfl, fun h => ?_⟩
  · have hcurrent := ((searching_run typedOn).isCurrent_iff rfl).mpr (rfl : _ = 1 + 1)
    exact absurd (h 1 [ada] hcurrent (.tail _ (.head _))) (by decide)
  · have hcurrent := ((searching_run takenBack).isCurrent_iff rfl).mpr (rfl : _ = 2 + 1)
    exact absurd (h 2 [abe, ada] hcurrent (.tail _ (.head _))) (by decide)

end UserSearch

end RealtimeChat
