import RealtimeChat.Accounts.Login
import RealtimeChat.Data.RegexMatcher
import RealtimeChat.Services.User

/-! Which users a search finds.

`listUsers` promises a partial match on the username, and gives the text of the search to the
database as a regular expression. A search without the characters that are special in one finds
the users it should, whoever they are; any other regular expression is read otherwise by some
username (`unaffected_iff_plain`). For given users, `listUsers_iff` says when that shows. -/
namespace RealtimeChat
open Data (Text trim utf16Length Regex Contains Plain Lists isOrdinary)
open Zod (Value Schema)

/-- The first users, by username, of those other than the caller whose username contains the
search. -/
def ListUsersRight (E : RegexEngine) (s : AuthServer) (caller : ObjectId) (search : Text) (limit : Nat)
    (r : Except Failure (List User)) : Prop :=
  ∃ all, Lists (fun user : Account => user.username) (fun user => user ∈ s.accounts.docs ∧
      user.id ≠ caller ∧ Contains E.fold search user.username) all ∧
    r = .ok ((all.take limit).map Account.toUser)

/-- The search is a regular expression, and a user whom it finds only as one, or only by the
letter, comes after enough whom it finds both ways. -/
def Unaffected (E : RegexEngine) (s : AuthServer) (caller : ObjectId) (search : Text) (limit : Nat) :
    Prop :=
  ∃ matching, E.compile search = some matching ∧ ∀ user ∈ s.accounts.docs, user.id ≠ caller →
    matching user.username ≠ decide (Contains E.fold search user.username) →
    limit ≤ (s.accounts.docs.filter fun other => other.id != caller &&
      (decide (other.username < user.username) &&
        (matching other.username && decide (Contains E.fold search other.username)))).length

section
variable {E : RegexEngine} {s : AuthServer} {caller : ObjectId} {search : Text} {limit : Nat}

/-- The users other than the caller. -/
def others (s : AuthServer) (caller : ObjectId) : List Account :=
  s.accounts.docs.filter fun user => user.id != caller

theorem mem_others {user : Account} :
    user ∈ others s caller ↔ user ∈ s.accounts.docs ∧ user.id ≠ caller := by
  rw [others, List.mem_filter, bne_iff_ne]

theorem lists_byUsername {docs : List Account} (h : docs.Sublist s.accounts.docs) :
    Lists (fun user : Account => user.username) (· ∈ docs) (byUsername docs) :=
  Data.lists_sort (s.accounts.usernames.sublist (h.map _))

/-- To pick users and sort them is to sort them and pick. -/
theorem byUsername_filter (p : Account → Bool) :
    byUsername (s.accounts.docs.filter fun user => user.id != caller && p user) =
      (byUsername (others s caller)).filter p := by
  refine Lists.unique (lists_byUsername List.filter_sublist) ?_
  have hothers := (@lists_byUsername s (others s caller) List.filter_sublist).filter p
  refine ⟨hothers.ascending, fun user => (hothers.mem_iff user).trans ?_⟩
  simp [others, and_assoc]

/-- What is found. -/
theorem listUsers_eq {matching : Text → Bool} (hsearch : search ≠ [])
    (hcompile : E.compile search = some matching) :
    listUsers E caller.toString (some search) limit s =
      .ok ((((byUsername (others s caller)).filter fun user => matching user.username).take limit).map
        Account.toUser) := by
  obtain ⟨c, rest, rfl⟩ := List.exists_cons_of_ne_nil hsearch
  rw [← byUsername_filter]
  simp only [listUsers, ObjectId.cast_toString, usernameFilter, hcompile]
  rfl

theorem listUsers_refused (hsearch : search ≠ []) (hcompile : E.compile search = none) :
    listUsers E caller.toString (some search) limit s = .error .queryFailed := by
  obtain ⟨c, rest, rfl⟩ := List.exists_cons_of_ne_nil hsearch
  simp only [listUsers, ObjectId.cast_toString, usernameFilter, hcompile]
  rfl

/-- What should be found. -/
theorem listUsersRight_iff {r : Except Failure (List User)} :
    ListUsersRight E s caller search limit r ↔
      r = .ok ((((byUsername (others s caller)).filter fun user =>
        decide (Contains E.fold search user.username)).take limit).map Account.toUser) := by
  have hothers := @lists_byUsername s (others s caller) List.filter_sublist
  have hall := hothers.filter fun user => decide (Contains E.fold search user.username)
  have hlists : Lists (fun user : Account => user.username) (fun user => user ∈ s.accounts.docs ∧
      user.id ≠ caller ∧ Contains E.fold search user.username) _ :=
    ⟨hall.ascending, fun user => (hall.mem_iff user).trans (by simp [mem_others, and_assoc])⟩
  constructor
  · intro h
    obtain ⟨all, h, rfl⟩ := h
    rw [h.unique hlists]
  · exact fun h => ⟨_, hlists, h⟩

/-- Users are told apart by what is sent of them. -/
theorem map_toUser_inj {l l' : List Account} (h : ∀ user ∈ l, user ∈ s.accounts.docs)
    (h' : ∀ user ∈ l', user ∈ s.accounts.docs) (heq : l.map Account.toUser = l'.map Account.toUser) :
    l = l' := by
  induction l generalizing l' with
  | nil => exact (List.map_eq_nil_iff.mp heq.symm).symm
  | cons user rest ih =>
    obtain ⟨user', rest', rfl, hsame, hrest⟩ := List.map_eq_cons_iff.mp heq.symm
    have hid : user.id = user'.id := (congrArg User.id hsame).symm
    obtain rfl := List.inj_on_of_nodup_map s.accounts.ids (h user (.head _)) (h' user' (.head _)) hid
    rw [ih (fun user hu => h user (.tail _ hu)) (fun user hu => h' user (.tail _ hu)) hrest.symm]

theorem unaffected_iff {matching : Text → Bool} (hcompile : E.compile search = some matching) :
    Unaffected E s caller search limit ↔
      ((byUsername (others s caller)).filter fun user => matching user.username).take limit =
        ((byUsername (others s caller)).filter fun user =>
          decide (Contains E.fold search user.username)).take limit := by
  have hothers := @lists_byUsername s (others s caller) List.filter_sublist
  rw [hothers.take_filter_eq_iff]
  have hcount : ∀ p : Account → Bool, ((byUsername (others s caller)).filter p).length =
      (s.accounts.docs.filter fun other => other.id != caller && p other).length := by
    intro p
    rw [← byUsername_filter]
    exact (List.perm_insertionSort _ _).length_eq
  simp only [hcount]
  constructor
  · intro h user hmem hne
    obtain ⟨matching', hcompile', h⟩ := h
    obtain rfl := Option.some.inj (hcompile.symm.trans hcompile')
    obtain ⟨hmem, hother⟩ := mem_others.mp hmem
    exact h user hmem hother hne
  · exact fun h => ⟨matching, hcompile, fun user hmem hother => h user (mem_others.mpr ⟨hmem, hother⟩)⟩

/-- For given users, the search is right exactly if they do not show what it is read as. -/
theorem listUsersRight_iff_unaffected (hsearch : search ≠ []) :
    ListUsersRight E s caller search limit (listUsers E caller.toString (some search) limit s) ↔
      Unaffected E s caller search limit := by
  rw [listUsersRight_iff]
  cases hcompile : E.compile search with
  | none =>
    rw [listUsers_refused hsearch hcompile]
    refine iff_of_false (fun h => ?_) fun h => ?_
    · cases h
    · obtain ⟨matching, h, -⟩ := h
      rw [hcompile] at h
      cases h
  | some matching =>
    have hdocs : ∀ (p : Account → Bool), ∀ user ∈ ((byUsername (others s caller)).filter p).take limit,
        user ∈ s.accounts.docs := by
      intro p user hmem
      have hin := (List.mem_filter.mp (List.mem_of_mem_take hmem)).1
      exact (mem_others.mp ((lists_byUsername (s := s) List.filter_sublist).mem_iff user |>.mp hin)).1
    rw [listUsers_eq hsearch hcompile, unaffected_iff hcompile]
    exact ⟨fun h => map_toUser_inj (hdocs _) (hdocs _) (Except.ok.inj h),
      fun h => congrArg (fun l => Except.ok (l.map Account.toUser)) h⟩

/-! ### What a search is read as -/

/-- A search without special characters is read by the letter. -/
theorem compile_plain (h : Plain search) (hlength : utf16Length search ≤ 50) :
    ∃ matching, E.compile search = some matching ∧
      ∀ text, matching text = true ↔ Contains E.fold search text := by
  have hprint : (Regex.only (Regex.literal search h)).print = search := Regex.print_literal search h
  obtain ⟨matching, hcompile, hmatching⟩ := E.usual (.only (.literal search h)) (by rwa [hprint])
  rw [hprint] at hcompile
  refine ⟨matching, hcompile, fun text => ?_⟩
  rw [hmatching, Regex.occurs_iff_of_plain _ (by rwa [hprint]), hprint]

theorem Unaffected.of_plain (h : Plain search) (hlength : utf16Length search ≤ 50) :
    Unaffected E s caller search limit := by
  obtain ⟨matching, hcompile, hmatching⟩ := compile_plain (E := E) h hlength
  refine ⟨matching, hcompile, fun user _ _ hne => absurd ?_ hne⟩
  rw [Bool.eq_iff_iff, hmatching, decide_eq_true_iff]

end

/-- A database with one user. -/
def singleUser (user : Account) : AuthServer :=
  ⟨⟨[user], List.nodup_singleton _, List.nodup_singleton _, List.nodup_singleton _⟩, 0⟩

/-- **Which searches are right whoever the users are**: of regular expressions as they are usually
written, those without special characters. -/
theorem unaffected_iff_plain (E : RegexEngine) (r : Regex .choice) (hlength : utf16Length r.print ≤ 50)
    {limit : Nat} (hlimit : 0 < limit) :
    (∀ s caller, Unaffected E s caller r.print limit) ↔ Plain r.print := by
  refine ⟨fun h => ?_, fun h s caller => .of_plain h hlength⟩
  have hfold : E.fold 'a' ≠ E.fold '.' := by
    rw [E.fold_ascii _ (by decide), E.fold_ascii _ (by decide)]
    decide
  refine (r.occurs_iff_contains (by decide) hfold).mp fun text => ?_
  -- The text may be somebody's username.
  obtain ⟨matching, hcompile, hmatching⟩ := E.usual r hlength
  obtain ⟨matching', hcompile', hunaffected⟩ :=
    h (singleUser ⟨⟨.ending 1, text, [], .offline, 0⟩, []⟩) (.ending 2)
  obtain rfl := Option.some.inj (hcompile.symm.trans hcompile')
  rw [← hmatching, ← decide_eq_true_iff (p := Contains E.fold r.print text), ← Bool.eq_iff_iff]
  by_contra hne
  have hother : ObjectId.ending 1 ≠ .ending 2 := by decide
  have hcount := hunaffected _ (List.mem_singleton_self _) hother hne
  simp [singleUser] at hcount
  omega

/-! ### What a request is given -/

theorem usersSearch_accepted {v : Value} {search : Text} (h : usersSearch v = ⟨some (some search), []⟩) :
    search ≠ [] ∧ utf16Length search ≤ 50 := by
  obtain ⟨hlong, hshort⟩ := Schema.refine_eq_ok.mp (Schema.optional_eq_ok h)
  refine ⟨?_, of_decide_eq_true hshort⟩
  rintro rfl
  exact absurd (Schema.refine_eq_ok.mp hlong).2 (by decide)

theorem usersLimit_accepted {v : Value} {limit : Int} (h : usersLimit v = ⟨some limit, []⟩) :
    1 ≤ limit ∧ limit ≤ 50 := by
  obtain ⟨v, h⟩ := Schema.orDefault_eq_ok h
  obtain ⟨hlong, hshort⟩ := Schema.refine_eq_ok.mp h
  exact ⟨of_decide_eq_true (Schema.refine_eq_ok.mp hlong).2, of_decide_eq_true hshort⟩

/-- A query with a search, as it is accepted. -/
structure AcceptedSearch (input : ListUsersQuery) (search : Text) : Prop where
  nonempty : search ≠ []
  short : utf16Length search ≤ 50
  limit : 1 ≤ input.limit ∧ input.limit ≤ 50

theorem listUsersQuery_accepted {query : Value} {input : ListUsersQuery} {search : Text}
    (h : listUsersQuerySchema.parse query = .ok input) (hsearch : input.search = some search) :
    AcceptedSearch input search := by
  obtain ⟨⟨read, limit⟩, hfields, rfl⟩ :=
    Schema.map_eq_ok.mp (Schema.object_eq_ok (Schema.parse_eq_ok.mp h))
  obtain ⟨hread, hlimit⟩ := Schema.both_eq_ok.mp hfields
  have hread := Schema.under_eq_ok.mp hread
  dsimp only at hsearch hread
  rw [hsearch] at hread
  obtain ⟨hnonempty, hshort⟩ := usersSearch_accepted hread
  exact ⟨hnonempty, hshort, usersLimit_accepted (Schema.under_eq_ok.mp hlimit)⟩

/-- **Which searches are right**: those that no user shows to be read as a regular expression. Of
searches without special characters these are all; and any regular expression, as they are usually
written, with a special character some users show to be one. -/
theorem listUsers_iff (E : RegexEngine) (s : AuthServer) (caller : Account) (query : Value)
    (input : ListUsersQuery) (search : Text) (hparse : listUsersQuerySchema.parse query = .ok input)
    (hsearch : input.search = some search) :
    (ListUsersRight E s caller.id search input.limit.toNat
        (listUsersHandler E (some caller.toPayload) input s) ↔
      Unaffected E s caller.id search input.limit.toNat) ∧
    (Plain search → Unaffected E s caller.id search input.limit.toNat) ∧
    ∀ r : Regex .choice, r.print = search → ¬ Plain search →
      ∃ s caller, ¬ Unaffected E s caller search input.limit.toNat := by
  have haccepted := listUsersQuery_accepted hparse hsearch
  have hhandler : listUsersHandler E (some caller.toPayload) input s =
      listUsers E caller.id.toString (some search) input.limit.toNat s := by
    rw [← hsearch]
    rfl
  rw [hhandler]
  refine ⟨listUsersRight_iff_unaffected haccepted.nonempty, fun h => .of_plain h haccepted.short, ?_⟩
  rintro r rfl hspecial
  have hlimit : 0 < input.limit.toNat := by
    have := haccepted.limit.1
    omega
  by_contra hnone
  refine hspecial ((unaffected_iff_plain E r haccepted.short hlimit).mp fun s caller => ?_)
  by_contra h
  exact hnone ⟨s, caller, h⟩

/-! A search with a dot, and one that is no regular expression. -/

/-- It takes the expressions of `Data.Regex`, and no others. -/
def referenceEngine : RegexEngine where
  fold := Char.toLower
  fold_ascii _ _ := rfl
  compile s := (Regex.read s).map fun r => r.occursIn Char.toLower
  usual r _ := by
    rw [Regex.read_print]
    exact ⟨_, rfl, r.occursIn_iff⟩

def abc : Account := ⟨⟨.ending 2, "abc".toList, "abc@chat.io".toList, .offline, 0⟩, []⟩

def searchQuery (search : String) : Value := .object [("search", .string search.toList)]

def searchInput (search : String) : ListUsersQuery := ⟨some search.toList, 20⟩

theorem listUsers_iff_dot :
    (ListUsersRight referenceEngine (singleUser abc) ann.id "a.c".toList 20
        (listUsersHandler referenceEngine (some ann.toPayload) (searchInput "a.c") (singleUser abc)) ↔
      Unaffected referenceEngine (singleUser abc) ann.id "a.c".toList 20) ∧
    (Plain "a.c".toList → Unaffected referenceEngine (singleUser abc) ann.id "a.c".toList 20) ∧
    ∀ r : Regex .choice, r.print = "a.c".toList → ¬ Plain "a.c".toList →
      ∃ s caller, ¬ Unaffected referenceEngine s caller "a.c".toList 20 :=
  listUsers_iff referenceEngine (singleUser abc) ann (searchQuery "a.c") (searchInput "a.c") "a.c".toList rfl
    rfl

/-- `a.c` finds `abc`, and `(` finds nothing but an error. -/
theorem search_misread :
    (listUsersQuerySchema.parse (searchQuery "a.c") = .ok (searchInput "a.c") ∧
      ¬ ListUsersRight referenceEngine (singleUser abc) ann.id "a.c".toList 20
        (listUsersHandler referenceEngine (some ann.toPayload) (searchInput "a.c") (singleUser abc))) ∧
      listUsersQuerySchema.parse (searchQuery "(") = .ok (searchInput "(") ∧
        listUsersHandler referenceEngine (some ann.toPayload) (searchInput "(") (singleUser abc) =
          .error .queryFailed := by
  refine ⟨⟨rfl, fun h => ?_⟩, rfl, rfl⟩
  have hfound : [abc.toUser] = [] := Except.ok.inj (listUsersRight_iff.mp h)
  cases hfound

end RealtimeChat
