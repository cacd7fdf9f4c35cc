import CredBridge.Api.Sessions

/-! # Whose session it is

The endpoints of the operators look at the role that a token tells, and nobody comes to be an operator here: not by a
registration, not by the choice of a role, not by a row that an operator creates, and whatever steps the calls take
between one another (`operators_fixed`). A user's row and sessions are the user's alone: while nobody tells the user's
password and no provider vouches for the user's email, no call signs a token of the user or writes the user's row
(`account_untouched`).

A role is chosen once: a choice is refused where the row has a role. But it is read before it is written, so the roles
stay where no two choices of one user overlap (`chosen_role_stays`), and of two that do the later one overwrites the
other (`overlapping_choices_overwrite`). In the runs in which each write finds no role, or the one it writes, the tokens
tell the role of the row, or none (`sessions_tell_role`). -/

namespace CredBridge.Api
open Concurrent Machine Result

variable {env : SessionEnv} {s s' : SessionState} {call : SessionCall} {reply : SessionReply} {value : String}
  {next : Option SessionCall} {u : UserRow}

theorem mem_updateUser {id : String} {change : UserRow → UserRow} {users : List UserRow} {user : UserRow}
    (h : user ∈ updateUser users id change) : user ∈ users ∨ ∃ row ∈ users, row.id = id ∧ user = change row := by
  obtain ⟨row, hrow, rfl⟩ := Table.mem_modify.mp h
  by_cases hid : row.id = id
  · rw [if_pos hid]
    exact .inr ⟨row, hrow, hid, rfl⟩
  · rw [if_neg hid]
    exact .inl hrow

/-! ### Operators -/

section Operators

/-- The identifiers of the operators. -/
def SessionState.operators (s : SessionState) : List String :=
  (s.users.filter fun user => user.role = some "operator").map (·.id)

/-- Only those of `operators` are operators, in the table and by their tokens. -/
structure OperatorsIn (operators : List String) (s : SessionState) : Prop where
  rows : ∀ user ∈ s.users, user.role = some "operator" → user.id ∈ operators
  tokens : ∀ token ∈ s.issued, token.role = some "operator" → token.sub ∈ operators

/-- A call that makes nobody an operator. -/
def SessionCall.MakesNone (operators : List String) : SessionCall → Prop
  | .createRegistered dto => dto.role ≠ some "operator"
  | .updateRole _ role => role ≠ "operator"
  | .createUser dto => dto.role ≠ "operator"
  | .sign payload => payload.role = some "operator" → payload.sub ∈ operators
  | _ => True

variable {operators : List String}

theorem SessionRequest.Asks.makesNone {request : SessionRequest} (h : request.Asks env s call)
    (hs : OperatorsIn operators s) : call.MakesNone operators := by
  cases h with
  | register dto hvalid =>
    intro hoperator
    have hmem := hvalid.2.2 _ hoperator
    revert hmem
    decide
  | login dto user passwordHash hmem => exact hs.rows user hmem
  | setRole token dto htoken hvalid =>
    intro hoperator
    unfold SetRoleDto.Valid at hvalid
    rw [hoperator] at hvalid
    revert hvalid
    decide
  | createUser token dto htoken hvalid =>
    intro hoperator
    have hmem := hvalid.2
    rw [hoperator] at hmem
    revert hmem
    decide
  | googleLogin | privySession | changePassword => trivial

theorem SessionCall.Goes.operatorsIn (h : call.Goes env value s s' next) (hs : OperatorsIn operators s)
    (hcall : call.MakesNone operators) : OperatorsIn operators s' ∧ ∀ next' ∈ next, next'.MakesNone operators := by
  cases h with
  | waits call => exact ⟨hs, fun next' hnext => by cases hnext; exact hcall⟩
  | signed payload =>
    refine ⟨⟨hs.rows, fun token htoken => ?_⟩, fun next' hnext => by cases hnext⟩
    rcases List.mem_append.mp htoken with htoken | htoken
    · exact hs.tokens token htoken
    · rw [List.mem_singleton.mp htoken]
      exact hcall
  | found call user hmem hfound =>
    refine ⟨hs, fun next' hnext => ?_⟩
    cases hnext
    exact hs.rows user hmem
  | unknownGoogle | foundEmail | unknownPrivy | foundPrivy =>
    refine ⟨hs, fun next' hnext => ?_⟩
    cases hnext
    trivial
  | inserted call row next hemail hid hinserted =>
    have hrow : row.role ≠ some "operator" := by
      rcases hinserted with ⟨dto, rfl, rfl, -⟩ | ⟨dto, rfl, rfl, -⟩
      · intro hrole
        cases hdto : dto.role with
        | none => simp [registeredRow, hdto] at hrole
        | some role => exact hcall (by simpa [registeredRow, hdto] using hrole)
      · intro hrole
        exact hcall (Option.some.inj hrole)
    refine ⟨⟨fun user huser => ?_, hs.tokens⟩, fun next' hnext => ?_⟩
    · rcases List.mem_append.mp huser with huser | huser
      · exact hs.rows user huser
      · rw [List.mem_singleton.mp huser]
        exact fun hrole => absurd hrole hrow
    · rcases hinserted with ⟨dto, -, -, rfl⟩ | ⟨dto, -, -, rfl⟩
      · cases hnext
        exact fun hrole => absurd hrole hrow
      · cases hnext
  | updated call row change next hrow hupdated hnext =>
    have hmem : row ∈ s.users := Table.mem_of_find hrow
    have hchange : ∀ user, (change user).id = user.id ∧
        ((change user).role = some "operator" → user.role = some "operator") := by
      intro user
      rcases hupdated with ⟨googleId, -, rfl⟩ | ⟨identity, -, rfl⟩ | ⟨role, rfl, rfl⟩ | ⟨newPassword, -, rfl⟩
      · exact ⟨rfl, id⟩
      · exact ⟨rfl, id⟩
      · exact ⟨rfl, fun hrole => absurd (Option.some.inj hrole) hcall⟩
      · exact ⟨rfl, id⟩
    refine ⟨⟨fun user huser hrole => ?_, hs.tokens⟩, fun next' hnext' => ?_⟩
    · rcases mem_updateUser huser with huser | ⟨old, hold, -, rfl⟩
      · exact hs.rows user huser hrole
      · rw [(hchange old).1]
        exact hs.rows old hold ((hchange old).2 hrole)
    · rcases hnext with rfl | rfl
      · cases hnext'
      · cases hnext'
        intro hrole
        show (change row).id ∈ operators
        rw [(hchange row).1]
        exact hs.rows row hmem ((hchange row).2 hrole)

theorem operators_outline (env : SessionEnv) (operators : List String) :
    Outline (sessionApi env) (fun _ _ => True) (fun _ _ _ => True) (OperatorsIn operators)
      (fun _ call => call.MakesNone operators) (fun _ _ => True) := by
  refine sessionOutline (fun _ => trivial) (fun _ _ _ _ hcall => hcall) ?_ ?_ ?_ ?_
  · exact fun s request call hs _ hasks => hasks.makesNone hs
  · exact fun _ _ _ _ _ _ _ => trivial
  · exact fun _ _ _ _ _ _ _ => trivial
  · intro s s' call reply value next hs hcall _ _ hgoes
    obtain ⟨hs', hnext⟩ := hgoes.operatorsIn hs hcall
    exact ⟨hs', trivial, hnext⟩

/-- Whoever passes the guards of the operators' endpoints, in any run, was an operator from the start. -/
theorem operators_fixed (env : SessionEnv) (s : SessionState) (hissued : s.issued = [])
    (ops : List (Op SessionRequest SessionReply)) :
    Throughout (sessionApi env).step
      (fun c => ∀ token, jwtGuard c.shared token = .ok () → assertOperator token = .ok () → token.sub ∈ s.operators)
      ⟨s, []⟩ ops := by
  have hs : OperatorsIn s.operators s := by
    refine ⟨fun user huser hrole => ?_, fun token htoken => ?_⟩
    · exact List.mem_map.mpr ⟨user, List.mem_filter.mpr ⟨huser, decide_eq_true hrole⟩, rfl⟩
    · rw [hissued] at htoken
      cases htoken
  have hrun := (operators_outline env s.operators).throughout (c := ⟨s, []⟩) ⟨hs, List.forall_mem_nil _⟩
    (along_allows (fun _ _ => trivial) (fun _ _ _ => trivial) _ ops)
  refine hrun.mono fun c hc token htoken hoperator => ?_
  exact hc.1.tokens token (jwtGuard_eq_ok.mp htoken) (assertOperator_eq_ok.mp hoperator)

end Operators

/-! ### One account -/

section Account
variable {u : UserRow}

/-- The row of `u` is as it was, no other one has its identifier, and no token tells of it. -/
structure Untouched (u : UserRow) (s : SessionState) : Prop where
  row : u ∈ s.users
  ids : Table.Keyed UserRow.id s.users
  tokens : ∀ token ∈ s.issued, token.sub ≠ u.id

/-- A password that is not the one of `u`. -/
def SessionRequest.Apart (env : SessionEnv) (u : UserRow) : SessionRequest → Prop
  | .login dto => dto.email = u.email → ∀ passwordHash ∈ u.passwordHash, env.compare dto.password passwordHash = false
  | _ => True

/-- An identity that a provider vouches for and that is not the one of `u`. -/
def SessionReply.Apart (env : SessionEnv) (u : UserRow) : SessionCall → SessionReply → Prop
  | .verifyIdToken _, .google payload => ∀ identity ∈ (googleIdentity payload).toOption,
      u.googleId ≠ some identity.1 ∧ u.email ≠ identity.2
  | .verifySession accessToken identityToken, .privy answer =>
      ∀ identity ∈ (verifySession env.toAuthEnv accessToken identityToken answer).toOption,
        u.privyUserId ≠ some identity.privyUserId ∧ u.email ≠ identity.email
  | _, _ => True

/-- A call that is not about `u`. -/
def SessionCall.Apart (u : UserRow) : SessionCall → Prop
  | .findGoogleId googleId email => u.googleId ≠ some googleId ∧ u.email ≠ email
  | .findGoogleEmail _ email => u.email ≠ email
  | .findPrivyUserId identity => u.privyUserId ≠ some identity.privyUserId ∧ u.email ≠ identity.email
  | .findPrivyEmail identity => u.email ≠ identity.email
  | .linkGoogle userId _ | .linkPrivy userId _ | .updateRole userId _ | .updatePassword userId _ => userId ≠ u.id
  | .sign payload => payload.sub ≠ u.id
  | _ => True

theorem Untouched.eq_of_id {user : UserRow} (hs : Untouched u s) (hmem : user ∈ s.users) (hid : user.id = u.id) :
    user = u :=
  hs.ids.eq_of_key hmem hs.row hid

theorem SessionRequest.Asks.apart {request : SessionRequest} (h : request.Asks env s call) (hs : Untouched u s)
    (hrequest : request.Apart env u) : call.Apart u := by
  cases h with
  | login dto user passwordHash hmem hemail hhash hcompare =>
    intro hid
    have heq : user = u := hs.eq_of_id hmem hid
    subst heq
    have hwrong := hrequest hemail.symm passwordHash hhash
    rw [hcompare] at hwrong
    cases hwrong
  | setRole token dto htoken | changePassword token dto htoken => exact hs.tokens token htoken
  | register | googleLogin | privySession | createUser => trivial

theorem Untouched.insert {row : UserRow} (hs : Untouched u s) (hid : findUser s.users row.id = none) :
    Untouched u { s with users := s.users ++ [row] } ∧ row.id ≠ u.id := by
  have hnew : row.id ∉ s.users.map UserRow.id := Table.find_eq_none.mp hid
  refine ⟨⟨List.mem_append_left _ hs.row, hs.ids.append hnew, hs.tokens⟩, fun heq => hnew ?_⟩
  rw [heq]
  exact List.mem_map_of_mem hs.row

theorem Untouched.update {userId : String} {change : UserRow → UserRow} (hs : Untouched u s) (hne : userId ≠ u.id)
    (hid : ∀ user, (change user).id = user.id) : Untouched u { s with users := updateUser s.users userId change } where
  row := Table.mem_modify.mpr ⟨u, hs.row, if_neg hne.symm⟩
  ids := hs.ids.modify fun user huser => (hid user).trans huser
  tokens := hs.tokens

theorem SessionCall.Goes.untouched (h : call.Goes env value s s' next) (hs : Untouched u s) (hcall : call.Apart u) :
    Untouched u s' ∧ ∀ next' ∈ next, next'.Apart u := by
  cases h with
  | waits call => exact ⟨hs, fun next' hnext => by cases hnext; exact hcall⟩
  | signed payload =>
    refine ⟨⟨hs.row, hs.ids, fun token htoken => ?_⟩, fun next' hnext => by cases hnext⟩
    rcases List.mem_append.mp htoken with htoken | htoken
    · exact hs.tokens token htoken
    · rw [List.mem_singleton.mp htoken]
      exact hcall
  | found call user hmem hfound =>
    refine ⟨hs, fun next' hnext => ?_⟩
    cases hnext
    intro hid
    cases hs.eq_of_id hmem hid
    rcases hfound with ⟨googleId, email, rfl, hgoogle⟩ | ⟨googleId, rfl⟩
    · exact hcall.1 hgoogle
    · exact hcall rfl
  | unknownGoogle googleId email =>
    refine ⟨hs, fun next' hnext => ?_⟩
    cases hnext
    exact hcall.2
  | foundEmail googleId user hmem =>
    refine ⟨hs, fun next' hnext => ?_⟩
    cases hnext
    intro hid
    cases hs.eq_of_id hmem hid
    exact hcall rfl
  | unknownPrivy identity =>
    refine ⟨hs, fun next' hnext => ?_⟩
    cases hnext
    exact hcall.2
  | foundPrivy call identity user hmem hfound =>
    refine ⟨hs, fun next' hnext => ?_⟩
    cases hnext
    intro hid
    cases hs.eq_of_id hmem hid
    rcases hfound with ⟨rfl, hprivy⟩ | ⟨rfl, hemail⟩
    · exact hcall.1 hprivy
    · exact hcall hemail
  | inserted call row next hemail hid hinserted =>
    obtain ⟨hs', hne⟩ := hs.insert hid
    refine ⟨hs', fun next' hnext => ?_⟩
    rcases hinserted with ⟨dto, -, -, rfl⟩ | ⟨dto, -, -, rfl⟩
    · cases hnext
      exact hne
    · cases hnext
  | updated call row change next hrow hupdated hnext =>
    have hne : row.id ≠ u.id := by
      rcases hupdated with ⟨_, rfl, -⟩ | ⟨_, rfl, -⟩ | ⟨_, rfl, -⟩ | ⟨_, rfl, -⟩ <;> exact hcall
    have hkeeps : ∀ user, (change user).id = user.id := by
      rcases hupdated with ⟨_, -, rfl⟩ | ⟨_, -, rfl⟩ | ⟨_, -, rfl⟩ | ⟨_, -, rfl⟩ <;> exact fun _ => rfl
    refine ⟨hs.update hne hkeeps, fun next' hnext' => ?_⟩
    rcases hnext with rfl | rfl
    · cases hnext'
    · cases hnext'
      intro hid
      exact hne ((hkeeps row).symm.trans hid)

theorem account_outline (env : SessionEnv) (u : UserRow) :
    Outline (sessionApi env) (fun _ request => request.Apart env u) (fun _ => SessionReply.Apart env u) (Untouched u)
      (fun _ call => call.Apart u) (fun _ _ => True) := by
  refine sessionOutline (fun _ => trivial) (fun _ _ _ _ hcall => hcall) ?_ ?_ ?_ ?_
  · exact fun s request call hs hrequest hasks => hasks.apart hs hrequest
  · exact fun s idToken payload googleId email hreply hidentity =>
      hreply (googleId, email) (toOption_eq_some.mpr hidentity)
  · exact fun s accessToken identityToken answer identity hreply hidentity =>
      hreply identity (toOption_eq_some.mpr hidentity)
  · intro s s' call reply value next hs hcall _ _ hgoes
    obtain ⟨hs', hnext⟩ := hgoes.untouched hs hcall
    exact ⟨hs', trivial, hnext⟩

/-- Whatever the others do, nobody has a token of a user, and the user's row stays as it is, as long as nobody tells the
    user's password and no provider vouches for the user's email. -/
theorem account_untouched (env : SessionEnv) (u : UserRow) (s : SessionState) (hrow : u ∈ s.users)
    (hids : Table.Keyed UserRow.id s.users) (hissued : s.issued = []) (ops : List (Op SessionRequest SessionReply))
    (hapart : Along (sessionApi env).step
      (Allows (fun _ request => request.Apart env u) (fun _ => SessionReply.Apart env u)) ⟨s, []⟩ ops) :
    Throughout (sessionApi env).step
      (fun c => u ∈ c.shared.users ∧ ∀ token, jwtGuard c.shared token = .ok () → token.sub ≠ u.id) ⟨s, []⟩ ops := by
  have hs : Untouched u s := by
    refine ⟨hrow, hids, ?_⟩
    rw [hissued]
    exact List.forall_mem_nil _
  have hrun := (account_outline env u).throughout (c := ⟨s, []⟩) ⟨hs, List.forall_mem_nil _⟩ hapart
  exact hrun.mono fun c hc => ⟨hc.1.row, fun token htoken => hc.1.tokens token (jwtGuard_eq_ok.mp htoken)⟩

end Account

/-! ### Roles -/

section Roles

/-- The token `payload` says the role of its row, or none. -/
def SessionState.Tells (s : SessionState) (payload : JwtPayload) : Prop :=
  ∃ user ∈ s.users, user.id = payload.sub ∧ (payload.role.getD "" = "" ∨ user.role = payload.role)

/-- Every row of `s` is there in `s'`, with its role if it had one. -/
def KeepsRoles (s s' : SessionState) : Prop :=
  ∀ user ∈ s.users, ∃ user' ∈ s'.users, user'.id = user.id ∧ (user.role.getD "" = "" ∨ user'.role = user.role)

/-- A call that writes a role finds none, or the one that it writes. -/
def SessionCall.FindsRole (s : SessionState) : SessionCall → Prop
  | .updateRole userId role => ∀ user ∈ s.users, user.id = userId → user.role.getD "" = "" ∨ user.role = some role
  | _ => True

def FindsRole (s : SessionState) (call : SessionCall) : SessionReply → Prop
  | .ok _ | .threw (some _) => call.FindsRole s
  | _ => True

def SessionCall.TellsRole (s : SessionState) : SessionCall → Prop
  | .sign payload => s.Tells payload
  | _ => True

theorem KeepsRoles.refl (s : SessionState) : KeepsRoles s s := fun user huser => ⟨user, huser, rfl, .inr rfl⟩

theorem SessionState.Tells.keeps {payload : JwtPayload} (h : s.Tells payload) (hs : KeepsRoles s s') :
    s'.Tells payload := by
  obtain ⟨user, huser, hid, hrole⟩ := h
  obtain ⟨user', huser', hid', hrole'⟩ := hs user huser
  refine ⟨user', huser', hid'.trans hid, ?_⟩
  rcases hrole with hnone | hrole
  · exact .inl hnone
  · rw [hrole] at hrole'
    exact hrole'

theorem KeepsRoles.trans {t : SessionState} (h : KeepsRoles s s') (h' : KeepsRoles s' t) : KeepsRoles s t := by
  intro user huser
  have htells : s'.Tells user.payload := h user huser
  exact htells.keeps h'

theorem SessionState.tells_of_mem {user : UserRow} (huser : user ∈ s.users) : s.Tells user.payload :=
  ⟨user, huser, rfl, .inr rfl⟩

theorem keepsRoles_update {userId : String} {change : UserRow → UserRow} (hid : ∀ user, (change user).id = user.id)
    (hrole : ∀ user ∈ s.users, user.id = userId → user.role.getD "" = "" ∨ (change user).role = user.role) :
    KeepsRoles s { s with users := updateUser s.users userId change } := by
  intro user huser
  refine ⟨_, Table.mem_modify.mpr ⟨user, huser, rfl⟩, ?_⟩
  by_cases hkey : user.id = userId
  · rw [if_pos hkey]
    exact ⟨hid user, hrole user huser hkey⟩
  · rw [if_neg hkey]
    exact ⟨rfl, .inr rfl⟩

/-- A statement that is executed keeps the roles if it finds none where it writes one. -/
theorem SessionCall.Goes.keepsRoles (h : call.Goes env value s s' next) (hfinds : call.FindsRole s) : KeepsRoles s s' := by
  cases h with
  | waits | found | unknownGoogle | foundEmail | unknownPrivy | foundPrivy => exact .refl s
  | signed payload => exact fun user huser => ⟨user, huser, rfl, .inr rfl⟩
  | inserted call row => exact fun user huser => ⟨user, List.mem_append_left _ huser, rfl, .inr rfl⟩
  | updated call row change next hrow hupdated hnext =>
    rcases hupdated with ⟨_, -, rfl⟩ | ⟨_, -, rfl⟩ | ⟨role, rfl, rfl⟩ | ⟨_, -, rfl⟩
    · exact keepsRoles_update (fun _ => rfl) fun _ _ _ => .inr rfl
    · exact keepsRoles_update (fun _ => rfl) fun _ _ _ => .inr rfl
    · exact keepsRoles_update (fun _ => rfl) fun user huser hid => (hfinds user huser hid).imp_right Eq.symm
    · exact keepsRoles_update (fun _ => rfl) fun _ _ _ => .inr rfl

theorem SessionCall.Goes.tells (h : call.Goes env value s s' next) (hkeeps : KeepsRoles s s') (hcall : call.TellsRole s) :
    (∀ token ∈ s'.issued, token ∈ s.issued ∨ s'.Tells token) ∧ ∀ next' ∈ next, next'.TellsRole s' := by
  cases h with
  | waits call hverifies =>
    refine ⟨fun token htoken => .inl htoken, fun next' hnext => ?_⟩
    cases hnext
    exact hcall
  | signed payload =>
    refine ⟨fun token htoken => ?_, fun next' hnext => by cases hnext⟩
    rcases List.mem_append.mp htoken with htoken | htoken
    · exact .inl htoken
    · rw [List.mem_singleton.mp htoken]
      exact .inr (hcall.keeps hkeeps)
  | found call user hmem hfound =>
    refine ⟨fun token htoken => .inl htoken, fun next' hnext => ?_⟩
    cases hnext
    exact SessionState.tells_of_mem hmem
  | unknownGoogle | foundEmail | unknownPrivy | foundPrivy =>
    refine ⟨fun token htoken => .inl htoken, fun next' hnext => ?_⟩
    cases hnext
    trivial
  | inserted call row next hemail hid hinserted =>
    refine ⟨fun token htoken => .inl htoken, fun next' hnext => ?_⟩
    rcases hinserted with ⟨dto, -, -, rfl⟩ | ⟨dto, -, -, rfl⟩
    · cases hnext
      exact ⟨row, List.mem_append_right _ List.mem_cons_self, rfl, .inr rfl⟩
    · cases hnext
  | updated call row change next hrow hupdated hnext =>
    refine ⟨fun token htoken => .inl htoken, fun next' hnext' => ?_⟩
    rcases hnext with rfl | rfl
    · cases hnext'
    · cases hnext'
      have hmem : change row ∈ updateUser s.users row.id change :=
        Table.mem_modify.mpr ⟨row, Table.mem_of_find hrow, if_pos rfl⟩
      exact ⟨change row, hmem, rfl, .inr rfl⟩

theorem findsRole_of_executed (hreply : reply = .ok value ∨ reply = .threw (some value)) :
    FindsRole s call reply ↔ call.FindsRole s := by
  rcases hreply with rfl | rfl <;> exact Iff.rfl

theorem roles_outline (env : SessionEnv) :
    Outline (sessionApi env) (fun _ _ => True) FindsRole (fun s => ∀ token ∈ s.issued, s.Tells token)
      (fun s call => call.TellsRole s) KeepsRoles := by
  refine sessionOutline KeepsRoles.refl ?_ ?_ ?_ ?_ ?_
  · intro s s' call hkeeps hcall
    cases call with
    | sign payload => exact hcall.keeps hkeeps
    | _ => trivial
  · intro s request call hs _ hasks
    cases hasks with
    | login dto user passwordHash hmem => exact SessionState.tells_of_mem hmem
    | _ => trivial
  · exact fun _ _ _ _ _ _ _ => trivial
  · exact fun _ _ _ _ _ _ _ => trivial
  · intro s s' call reply value next hs hcall hfinds hreply hgoes
    have hkeeps : KeepsRoles s s' := hgoes.keepsRoles ((findsRole_of_executed hreply).mp hfinds)
    obtain ⟨htokens, hnext⟩ := hgoes.tells hkeeps hcall
    exact ⟨fun token htoken => (htokens token htoken).elim (fun hold => (hs token hold).keeps hkeeps) id, hkeeps, hnext⟩

theorem tells_nothing_issued (hissued : s.issued = []) :
    Holds (fun s => ∀ token ∈ s.issued, s.Tells token) (fun s (call : SessionCall) => call.TellsRole s) ⟨s, []⟩ := by
  refine ⟨fun token htoken => ?_, List.forall_mem_nil _⟩
  rw [hissued] at htoken
  cases htoken

/-- In the runs in which each role is written where there is none, or where it is already, every token that passes the
    guard tells the role of its row, or none. -/
theorem sessions_tell_role (env : SessionEnv) (s : SessionState) (hissued : s.issued = [])
    (ops : List (Op SessionRequest SessionReply))
    (hfinds : Along (sessionApi env).step (Allows (fun _ _ => True) FindsRole) ⟨s, []⟩ ops) :
    Throughout (sessionApi env).step (fun c => ∀ token, jwtGuard c.shared token = .ok () → c.shared.Tells token)
      ⟨s, []⟩ ops := by
  exact ((roles_outline env).throughout (tells_nothing_issued hissued) hfinds).mono fun c hc token htoken =>
    hc.1 token (jwtGuard_eq_ok.mp htoken)

end Roles

/-! ### Choices of a role -/

section Choices

/-- The user whose role a call is to write. -/
def SessionCall.chooses : SessionCall → Option String
  | .updateRole userId _ => some userId
  | _ => none

/-- The row of the user is there, and has no role. -/
def SessionState.Unset (s : SessionState) (userId : String) : Prop :=
  ∃ user ∈ s.users, user.id = userId ∧ user.role.getD "" = ""

/-- No choice of a role is let through while another one of the user waits for its write. -/
def ChoosesApart (env : SessionEnv) (c : Config SessionState SessionCall) : Op SessionRequest SessionReply → Prop
  | .start request => ∀ call ∈ (request.check env c.shared).toOption, ∀ userId ∈ call.chooses, ∀ waiting ∈ c.calls,
      waiting.chooses ≠ some userId
  | _ => True

/-- The users whose role is to be written have none, and no two calls are to write one user's. -/
structure ChoicesApart (c : Config SessionState SessionCall) : Prop where
  ids : Table.Keyed UserRow.id c.shared.users
  apart : c.Apart SessionCall.chooses
  unset : ∀ call ∈ c.calls, ∀ userId ∈ call.chooses, c.shared.Unset userId

theorem SessionRequest.Asks.unset {request : SessionRequest} (h : request.Asks env s call) :
    ∀ userId ∈ call.chooses, s.Unset userId := by
  intro userId hchooses
  cases h with
  | setRole token dto htoken hvalid user hmem hid hunset =>
    cases hchooses
    exact ⟨user, hmem, hid, hunset⟩
  | register | login | googleLogin | privySession | changePassword | createUser => cases hchooses

theorem SessionCall.findsRole_of_unset (hids : Table.Keyed UserRow.id s.users)
    (hunset : ∀ userId ∈ call.chooses, s.Unset userId) : call.FindsRole s := by
  cases call with
  | updateRole userId role =>
    intro user huser hid
    obtain ⟨user', huser', hid', hnone⟩ := hunset userId rfl
    cases hids.eq_of_key huser huser' (hid.trans hid'.symm)
    exact .inl hnone
  | _ => trivial

/-- What a statement changes: the rows keep their identifiers, only a choice writes a role, and none waits after it. -/
theorem SessionCall.Goes.choices (h : call.Goes env value s s' next) (hids : Table.Keyed UserRow.id s.users) :
    Table.Keyed UserRow.id s'.users ∧ (∀ userId, call.chooses ≠ some userId → s.Unset userId → s'.Unset userId) ∧
      ∀ next' ∈ next, next'.chooses = none := by
  cases h with
  | waits call hverifies =>
    refine ⟨hids, fun _ _ => id, fun next' hnext => ?_⟩
    cases hnext
    rcases hverifies with ⟨_, rfl⟩ | ⟨_, _, rfl⟩ <;> rfl
  | signed payload => exact ⟨hids, fun _ _ => id, fun next' hnext => by cases hnext⟩
  | found | unknownGoogle | foundEmail | unknownPrivy | foundPrivy =>
    refine ⟨hids, fun _ _ => id, fun next' hnext => ?_⟩
    cases hnext
    rfl
  | inserted call row next hemail hid hinserted =>
    refine ⟨hids.append (Table.find_eq_none.mp hid), fun userId _ hunset => ?_, fun next' hnext => ?_⟩
    · obtain ⟨user, huser, hrest⟩ := hunset
      exact ⟨user, List.mem_append_left _ huser, hrest⟩
    · rcases hinserted with ⟨dto, -, -, rfl⟩ | ⟨dto, -, -, rfl⟩ <;> cases hnext
      rfl
  | updated call row change next hrow hupdated hnext =>
    have hid : ∀ user, (change user).id = user.id := by
      rcases hupdated with ⟨_, -, rfl⟩ | ⟨_, -, rfl⟩ | ⟨_, -, rfl⟩ | ⟨_, -, rfl⟩ <;> exact fun _ => rfl
    refine ⟨hids.modify fun user huser => (hid user).trans huser, fun userId hother hunset => ?_, fun next' hnext' => ?_⟩
    · obtain ⟨user, huser, huserId, hnone⟩ := hunset
      refine ⟨_, Table.mem_modify.mpr ⟨user, huser, rfl⟩, ?_⟩
      by_cases hkey : user.id = row.id
      · rw [if_pos hkey]
        refine ⟨(hid user).trans huserId, ?_⟩
        rcases hupdated with ⟨_, -, rfl⟩ | ⟨_, -, rfl⟩ | ⟨_, rfl, -⟩ | ⟨_, -, rfl⟩
        · exact hnone
        · exact hnone
        · exact absurd (congrArg some (hkey.symm.trans huserId)) hother
        · exact hnone
      · rw [if_neg hkey]
        exact ⟨huserId, hnone⟩
    · rcases hnext with rfl | rfl <;> cases hnext'
      rfl

theorem resume_choices (env : SessionEnv) (hids : Table.Keyed UserRow.id s.users)
    (hunset : ∀ userId ∈ call.chooses, s.Unset userId) (reply : SessionReply) :
    Table.Keyed UserRow.id (resumeSession env call reply s).1.users ∧
      KeepsRoles s (resumeSession env call reply s).1 ∧
      (∀ userId, call.chooses ≠ some userId → s.Unset userId → (resumeSession env call reply s).1.Unset userId) ∧
      ∀ next ∈ (resumeSession env call reply s).2, next.chooses = none ∨
        next = call ∧ (resumeSession env call reply s).1 = s := by
  have hresumed := resumeSession_resumed env call reply s
  generalize resumeSession env call reply s = r at hresumed ⊢
  cases hresumed with
  | stops call reply hthrows hr =>
    subst hr
    exact ⟨hids, .refl s, fun _ _ => id, fun next hnext => by cases hnext⟩
  | waits call reply hunanswered hr =>
    subst hr
    refine ⟨hids, .refl s, fun _ _ => id, fun next hnext => ?_⟩
    cases hnext
    exact .inr ⟨rfl, rfl⟩
  | google _ _ _ _ _ hr | privy _ _ _ _ _ hr =>
    subst hr
    refine ⟨hids, .refl s, fun _ _ => id, fun next hnext => ?_⟩
    cases hnext
    exact .inl rfl
  | goes call reply value s' next hgoes hreply hr =>
    obtain ⟨hids', hkept, hnext⟩ := hgoes.choices hids
    have hkeeps : KeepsRoles s s' := hgoes.keepsRoles (SessionCall.findsRole_of_unset hids hunset)
    rcases hr with rfl | rfl
    · exact ⟨hids', hkeeps, hkept, fun next' hnext' => .inl (hnext next' hnext')⟩
    · exact ⟨hids', hkeeps, hkept, fun next' hnext' => by cases hnext'⟩

theorem choicesApart_step {c c' : Config SessionState SessionCall} {op : Op SessionRequest SessionReply}
    (hc : ChoicesApart c) (hapart : ChoosesApart env c op) (hstep : (sessionApi env).step c op = .ok c') :
    ChoicesApart c' ∧ KeepsRoles c.shared c'.shared := by
  cases step_moved hstep with
  | start request hop hc' =>
    subst hop hc'
    refine ⟨⟨hc.ids, apart_after hc.apart hapart, fun call hcall userId hchooses => ?_⟩, .refl c.shared⟩
    rcases List.mem_append.mp hcall with hold | hnew
    · exact hc.unset call hold userId hchooses
    · exact (check_asks (toOption_eq_some.mp (Option.mem_toList.mp hnew))).unset userId hchooses
  | resume i reply call rest hop hf hcalls hc' =>
    subst hc'
    obtain ⟨hrest, hothers⟩ := hc.apart.of_perm hcalls
    have hmem : ∀ f, f = call ∨ f ∈ rest → f ∈ c.calls := fun f hf => hcalls.mem_iff.mpr (List.mem_cons.mpr hf)
    obtain ⟨hids, hkeeps, hkept, hnext⟩ := resume_choices env hc.ids (hc.unset call (hmem call (.inl rfl))) reply
    refine ⟨⟨hids, apart_after hrest fun next hn userId hchooses other hother => ?_, fun f hf userId hchooses => ?_⟩, hkeeps⟩
    · rcases hnext next hn with hnone | ⟨rfl, -⟩
      · rw [hnone] at hchooses
        cases hchooses
      · exact hothers userId hchooses other hother
    · rcases List.mem_append.mp hf with hf | hf
      · exact hkept userId (fun hcall => hothers userId hcall f hf hchooses) (hc.unset f (hmem f (.inr hf)) userId hchooses)
      · rcases hnext f (Option.mem_toList.mp hf) with hnone | ⟨rfl, hs⟩
        · rw [hnone] at hchooses
          cases hchooses
        · show (resumeSession env f reply c.shared).1.Unset userId
          rw [hs]
          exact hc.unset f (hmem f (.inl rfl)) userId hchooses
  | crash i call rest hop hcalls hc' =>
    subst hc'
    exact ⟨⟨hc.ids, (hc.apart.of_perm hcalls).1, fun f hf => hc.unset f (hcalls.mem_iff.mpr (List.mem_cons_of_mem _ hf))⟩,
      .refl c.shared⟩

/-- A role that a row has at some time it has at every later time, where no two choices of one user overlap. -/
theorem chosen_role_stays (env : SessionEnv) (s : SessionState) (hids : Table.Keyed UserRow.id s.users)
    (ops : List (Op SessionRequest SessionReply)) (hapart : Along (sessionApi env).step (ChoosesApart env) ⟨s, []⟩ ops) :
    Onward (sessionApi env).step (fun c c' => KeepsRoles c.shared c'.shared) ⟨s, []⟩ ops :=
  onward_of_along (fun c => .refl c.shared) (fun _ _ _ => .trans) (fun _ _ _ => choicesApart_step)
    ⟨hids, List.nodup_nil, List.forall_mem_nil _⟩ hapart

theorem resume_updateRole_users {userId role : String} (hrow : (findUser s.users userId).isSome) :
    (resumeSession env (.updateRole userId role) (.ok value) s).1.users =
      updateUser s.users userId ({ · with role := some role }) := by
  obtain ⟨row, hfind⟩ := Option.isSome_iff_exists.mp hrow
  simp only [resumeSession, SessionCall.goOn, updateRow, hfind]
  rfl

theorem not_keepsRoles_updateRole {role role' : String} (hmem : u ∈ s.users) (hset : u.role = some role) (hrole : role ≠ "")
    (hother : role' ≠ role) : ¬KeepsRoles s (resumeSession env (.updateRole u.id role') (.ok value) s).1 := by
  intro hkeeps
  have hrow : (findUser s.users u.id).isSome := Option.isSome_iff_ne_none.mpr fun hnone =>
    Table.find_eq_none.mp hnone (List.mem_map_of_mem hmem)
  obtain ⟨user, huser, hid, hkept⟩ := hkeeps u hmem
  rw [resume_updateRole_users hrow] at huser
  obtain ⟨old, -, rfl⟩ := Table.mem_modify.mp huser
  rw [hset] at hkept
  by_cases hold : old.id = u.id
  · rw [if_pos hold] at hkept
    rcases hkept with hnone | hkept
    · exact hrole hnone
    · exact hother (Option.some.inj hkept)
  · rw [if_neg hold] at hid
    exact hold hid

/-- Of two choices that wait at once, the second one to be written overwrites the first. -/
theorem overlapping_choices_overwrite (env : SessionEnv) (s : SessionState) {userId role role' : String}
    (hrow : (findUser s.users userId).isSome) (hrole : role ≠ "") (hother : role' ≠ role) (value value' : String) :
    ¬Onward (sessionApi env).step (fun c c' => KeepsRoles c.shared c'.shared)
      ⟨s, [.updateRole userId role, .updateRole userId role']⟩ [.resume 0 (.ok value), .resume 0 (.ok value')] := by
  intro hstays
  have hkeeps := hstays.2.1.2.head
  rw [next_resume_head] at hkeeps
  obtain ⟨row, hfind⟩ := Option.isSome_iff_exists.mp hrow
  have hid : row.id = userId := Table.key_of_find hfind
  have hwritten : { row with role := some role } ∈
      ((sessionApi env).resume (.updateRole userId role) (.ok value) s).1.users := by
    show _ ∈ (resumeSession env (.updateRole userId role) (.ok value) s).1.users
    rw [resume_updateRole_users hrow]
    exact Table.mem_modify.mpr ⟨row, Table.mem_of_find hfind, if_pos hid⟩
  subst hid
  exact not_keepsRoles_updateRole (u := { row with role := some role }) hwritten rfl hrole hother hkeeps

end Choices

section Examples

instance (env : SessionEnv) (u : UserRow) : (request : SessionRequest) → Decidable (request.Apart env u)
  | .login dto => inferInstanceAs (Decidable (dto.email = u.email → ∀ passwordHash ∈ u.passwordHash,
      env.compare dto.password passwordHash = false))
  | .register _ | .googleLogin _ | .privySession .. | .setRole .. | .changePassword .. | .createUser .. =>
    instDecidableTrue

instance (env : SessionEnv) (u : UserRow) (call : SessionCall) (reply : SessionReply) :
    Decidable (reply.Apart env u call) := by
  unfold SessionReply.Apart
  split <;> infer_instance

instance (s : SessionState) (call : SessionCall) : Decidable (call.FindsRole s) := by
  unfold SessionCall.FindsRole
  split <;> infer_instance

instance (s : SessionState) (call : SessionCall) : (reply : SessionReply) → Decidable (FindsRole s call reply)
  | .ok _ | .threw (some _) => inferInstanceAs (Decidable (call.FindsRole s))
  | .threw none | .google _ | .privy _ => instDecidableTrue

instance (env : SessionEnv) (c : Config SessionState SessionCall) :
    (op : Op SessionRequest SessionReply) → Decidable (ChoosesApart env c op)
  | .start request => inferInstanceAs (Decidable (∀ call ∈ (request.check env c.shared).toOption,
      ∀ userId ∈ call.chooses, ∀ waiting ∈ c.calls, waiting.chooses ≠ some userId))
  | .resume .. | .crash _ => instDecidableTrue

/-- A hash that shows its password. -/
def testSessions : SessionEnv where
  googleClientId := "client"
  hash password := "#" ++ password
  trim := id
  toLowerCase := id
  isEmail email := email ≠ ""
  compare password passwordHash := "#" ++ password = passwordHash

def operatorRow : UserRow :=
  { id := "operator", email := "operator@mail", passwordHash := some "#operators-own", role := some "operator" }

def userRow : UserRow := { id := "user", email := "user@mail", passwordHash := some "#users-own", role := none }

def registeredUsers : SessionState := { users := [operatorRow, userRow] }

/-- The operator logs in and creates a row. -/
def operatorLogin : List (Op SessionRequest SessionReply) :=
  [.start (.login ⟨"operator@mail", "operators-own"⟩), .resume 0 (.ok ""),
    .start (.createUser operatorRow.payload ⟨"new@mail", "investor"⟩), .resume 0 (.ok "new")]

theorem operators_fixed_login :
    (∃ token ∈ (run (sessionApi testSessions).step ⟨registeredUsers, []⟩ operatorLogin).shared.issued,
        assertOperator token = .ok ()) ∧
      Throughout (sessionApi testSessions).step
        (fun c => ∀ token, jwtGuard c.shared token = .ok () → assertOperator token = .ok () →
          token.sub ∈ registeredUsers.operators) ⟨registeredUsers, []⟩ operatorLogin :=
  ⟨by decide +kernel, operators_fixed testSessions registeredUsers rfl operatorLogin⟩

/-- A wrong password, a registration with the email of the user, and a Google account of another. -/
def strangersLogins : List (Op SessionRequest SessionReply) :=
  [.start (.login ⟨"user@mail", "guessed"⟩), .start (.register ⟨"user@mail", "strangers-own", none⟩),
    .start (.register ⟨"stranger@mail", "strangers-own", none⟩), .resume 0 (.ok "stranger"), .resume 0 (.ok ""),
    .start (.googleLogin "token"), .resume 0 (.google (some ⟨some "google-sub", some "stranger@mail", true⟩)),
    .resume 0 (.ok ""), .resume 0 (.ok ""), .resume 0 (.ok ""), .resume 0 (.ok "")]

theorem account_untouched_strangers :
    (run (sessionApi testSessions).step ⟨registeredUsers, []⟩ strangersLogins).shared.issued.map (·.sub) =
        ["stranger", "stranger"] ∧
      Throughout (sessionApi testSessions).step
        (fun c => userRow ∈ c.shared.users ∧ ∀ token, jwtGuard c.shared token = .ok () → token.sub ≠ userRow.id)
        ⟨registeredUsers, []⟩ strangersLogins :=
  ⟨by decide +kernel, account_untouched testSessions userRow registeredUsers (by decide +kernel)
    (by unfold Table.Keyed; decide +kernel) rfl strangersLogins (by decide +kernel)⟩

/-- The user logs in and chooses a role. -/
def roleChoice : List (Op SessionRequest SessionReply) :=
  [.start (.login ⟨"user@mail", "users-own"⟩), .resume 0 (.ok ""), .start (.setRole userRow.payload ⟨"pme"⟩)]

/-- A second choice comes once the first one is written. -/
theorem chosen_role_stays_refused :
    (checkSetRole userRow.payload ⟨"investor"⟩ (run (sessionApi testSessions).step ⟨registeredUsers, []⟩
          (roleChoice ++ [.resume 0 (.ok "")])).shared).toOption.isSome = false ∧
      Onward (sessionApi testSessions).step (fun c c' => KeepsRoles c.shared c'.shared) ⟨registeredUsers, []⟩
        (roleChoice ++ [.resume 0 (.ok ""), .start (.setRole userRow.payload ⟨"investor"⟩), .resume 0 (.ok "")]) :=
  ⟨by decide +kernel, chosen_role_stays testSessions registeredUsers (by unfold Table.Keyed; decide +kernel) _
    (by decide +kernel)⟩

theorem sessions_tell_role_chosen :
    Throughout (sessionApi testSessions).step (fun c => ∀ token, jwtGuard c.shared token = .ok () → c.shared.Tells token)
      ⟨registeredUsers, []⟩ (roleChoice ++ [.resume 0 (.ok ""), .resume 0 (.ok "")]) :=
  sessions_tell_role testSessions registeredUsers rfl _ (by decide +kernel)

end Examples

end CredBridge.Api
