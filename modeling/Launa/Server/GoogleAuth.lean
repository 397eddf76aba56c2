import Launa.Lib.Run

/-!
# The OAuth server of `google_home.rs`

`auth_login` hands out authorization codes, and `auth_token` exchanges a code for an access token.
The codes are in a map behind a lock. `auth_token` takes the lock twice, once to look the code up
and once to remove it, and any other request may run between (`Event`). It does not look whether the
code was still there to be removed, and it does not compare the redirect URI of a request that has
none.

`OAuthServer` keeps, beside the state, which codes were handed out and how each request that got as
far as the removal was answered. Every token is proper (`SingleUse`) exactly as long as no token is
made by a removal that finds nothing, or for a request without a redirect URI (`singleUse_iff`).
-/

namespace Launa.Server

open Run

/-- `GoogleHomeConfig`: what the handlers read of it. -/
structure GoogleHomeConfig where
  username : String
  password : String
  oauthClientId : String
  oauthClientSecret : String

/-- What is posted to log in. -/
structure LoginForm where
  username : String
  password : String
  redirectUri : String
  state : Option String

/-- What is posted for a token. -/
structure TokenRequest where
  grantType : String
  code : String
  clientId : String
  clientSecret : String
  redirectUri : Option String

/-- `PENDING_AUTHS`: the redirect URI of each code that is pending. -/
abbrev PendingAuths := String → Option String

/-- The responses of the handlers. -/
inductive Response where
  /-- The status 403. -/
  | forbidden (text : String)
  /-- The page that says that the login failed. -/
  | loginFailed
  | redirect (url : String)
  /-- The object with the member `error`. -/
  | error (kind : String)
  /-- The object with the member `access_token`. -/
  | token (accessToken : String)

/-- The response hands out an access token. -/
def Response.isToken : Response → Bool
  | .token _ => true
  | _ => false

/-- `auth_login`, where `code` is the code that it generates. -/
def authLogin (gh : Option GoogleHomeConfig) (form : LoginForm) (code : String)
    (auths : PendingAuths) : Response × PendingAuths :=
  match gh with
  | none => (.forbidden "Google Home not enabled", auths)
  | some gh =>
    if form.username ≠ gh.username ∨ form.password ≠ gh.password then (.loginFailed, auths)
    else
      let url := match form.state with
        | some s => form.redirectUri ++ "?code=" ++ code ++ "&state=" ++ s
        | none => form.redirectUri ++ "?code=" ++ code
      (.redirect url, Function.update auths code (some form.redirectUri))

/-- `auth_token` up to the removal of the code: the code is looked up under the read lock. An error
is the response. -/
def authTokenCheck (gh : Option GoogleHomeConfig) (form : TokenRequest) (auths : PendingAuths) :
    Except Response Unit :=
  match gh with
  | none => .error (.error "invalid_grant")
  | some gh =>
    if form.clientId ≠ gh.oauthClientId ∨ form.clientSecret ≠ gh.oauthClientSecret then
      .error (.error "invalid_client")
    else match auths form.code with
      | none => .error (.error "invalid_grant")
      | some redirectUri => match form.redirectUri with
        | some expectedUri =>
          if expectedUri ≠ redirectUri then .error (.error "invalid_grant") else .ok ()
        | none => .ok ()

/-- `auth_token` from the removal of the code on, which is under the write lock. `jwt` is what
`create_jwt` returns, or `none` for its error. -/
def authTokenRedeem (form : TokenRequest) (jwt : Option String) (auths : PendingAuths) :
    Response × PendingAuths :=
  let auths' := Function.update auths form.code none
  match jwt with
  | some token => (.token token, auths')
  | none => (.error "server_error", auths')

/-- The OAuth server, and a record of what it did. -/
structure OAuthServer where
  pendingAuths : PendingAuths
  /-- The token requests that are between their check and their removal. -/
  checked : List TokenRequest
  /-- The codes handed out, each with the redirect URI of its login. -/
  logins : List (String × String)
  /-- The token requests that removed their code, in order, each with its response. -/
  redeemed : List (TokenRequest × Response)

namespace OAuthServer

/-- The server at its start. -/
def start : OAuthServer := ⟨fun _ => none, [], [], []⟩

/-- A step of some request. -/
inductive Event where
  /-- A login, for which `code` is generated. -/
  | login (form : LoginForm) (code : String)
  /-- A token request, up to the removal of its code. -/
  | check (form : TokenRequest)
  /-- The rest of the `k`-th of the token requests that are between the two. -/
  | redeem (k : ℕ) (jwt : Option String)

variable (gh : Option GoogleHomeConfig)

/-- One step of the server. -/
def step (s : OAuthServer) : Event → OAuthServer
  | .login form code =>
    match authLogin gh form code s.pendingAuths with
    | (.redirect _, auths) =>
      { s with pendingAuths := auths, logins := s.logins ++ [(code, form.redirectUri)] }
    | (_, auths) => { s with pendingAuths := auths }
  | .check form =>
    match authTokenCheck gh form s.pendingAuths with
    | .error _ => s
    | .ok () => { s with checked := s.checked ++ [form] }
  | .redeem k jwt =>
    match s.checked[k]? with
    | none => s
    | some form =>
      let (response, auths) := authTokenRedeem form jwt s.pendingAuths
      { s with
        pendingAuths := auths, checked := s.checked.eraseIdx k,
        redeemed := s.redeemed ++ [(form, response)] }

/-- A login generates a code that no login before it did. -/
def FreshCode (s : OAuthServer) : Event → Prop
  | .login _ code => ∀ uri, (code, uri) ∉ s.logins
  | _ => True

/-- A token request that carries the client of the configuration, and the redirect URI that its
code was handed out for. -/
def Entitled (s : OAuthServer) (form : TokenRequest) : Prop :=
  ∃ config uri, gh = some config ∧ form.clientId = config.oauthClientId ∧
    form.clientSecret = config.oauthClientSecret ∧ (form.code, uri) ∈ s.logins ∧
    form.redirectUri = some uri

/-- The codes that were exchanged for a token. -/
def tokenCodes (s : OAuthServer) : List String :=
  (s.redeemed.filter fun r => r.2.isToken).map fun r => r.1.code

/-- The codes are of single use. -/
structure SingleUse (s : OAuthServer) : Prop where
  /-- A token goes to a request that is entitled to it. -/
  entitled : ∀ r ∈ s.redeemed, r.2.isToken → s.Entitled gh r.1
  /-- A token goes to a request whose code none before it redeemed. -/
  unredeemed : s.redeemed.Pairwise fun q r => r.2.isToken → q.1.code ≠ r.1.code
  /-- A code yields one token at most. -/
  nodup : s.tokenCodes.Nodup

/-- A removal that a token is made after finds the code, and is of a request with a redirect URI. -/
def Undisturbed (s : OAuthServer) : Event → Prop
  | .redeem k (some _) =>
    ∀ form, s.checked[k]? = some form →
      (s.pendingAuths form.code).isSome ∧ form.redirectUri.isSome
  | _ => True

/-! ## What every run keeps -/

/-- What the server knows of the codes, whatever the order of the steps. -/
structure Sound (s : OAuthServer) : Prop where
  /-- A pending code was handed out, for the redirect URI in the map. -/
  pending : ∀ code uri, s.pendingAuths code = some uri → (code, uri) ∈ s.logins
  /-- A code that was handed out is pending, or was redeemed. -/
  logins : ∀ code uri, (code, uri) ∈ s.logins →
    (s.pendingAuths code).isSome ∨ ∃ r ∈ s.redeemed, r.1.code = code
  /-- A redeemed code was handed out, and is not pending any more. -/
  redeemed : ∀ r ∈ s.redeemed, (∃ uri, (r.1.code, uri) ∈ s.logins) ∧
    s.pendingAuths r.1.code = none
  /-- A request that was checked is entitled to a token, if it has a redirect URI. -/
  checked : ∀ form ∈ s.checked, ∃ config uri, gh = some config ∧
    form.clientId = config.oauthClientId ∧ form.clientSecret = config.oauthClientSecret ∧
    (form.code, uri) ∈ s.logins ∧ ∀ u ∈ form.redirectUri, u = uri

/-- In the beginning nothing was issued. -/
theorem sound_start : start.Sound gh where
  pending := fun _ _ h => absurd h (Option.some_ne_none _).symm
  logins := fun _ _ h => absurd h List.not_mem_nil
  redeemed := fun _ h => absurd h List.not_mem_nil
  checked := fun _ h => absurd h List.not_mem_nil

variable {gh} {s : OAuthServer}

/-- What a login does: nothing, or it hands out its code. -/
theorem step_login (s : OAuthServer) (form : LoginForm) (code : String) :
    step gh s (.login form code) = s ∨
      step gh s (.login form code) =
        { s with
          pendingAuths := Function.update s.pendingAuths code (some form.redirectUri),
          logins := s.logins ++ [(code, form.redirectUri)] } := by
  cases gh with
  | none => exact .inl rfl
  | some config =>
    by_cases hform : form.username ≠ config.username ∨ form.password ≠ config.password
    · simp only [step, authLogin, if_pos hform]
      exact .inl trivial
    · simp only [step, authLogin, if_neg hform]
      exact .inr trivial

/-- What passes the check: the client of the configuration, with a pending code, and with its
redirect URI or none. -/
theorem authTokenCheck_eq_ok {form : TokenRequest} {auths : PendingAuths}
    (h : authTokenCheck gh form auths = .ok ()) :
    ∃ config uri, gh = some config ∧ form.clientId = config.oauthClientId ∧
      form.clientSecret = config.oauthClientSecret ∧ auths form.code = some uri ∧
      ∀ u ∈ form.redirectUri, u = uri := by
  cases gh with
  | none => cases h
  | some config =>
    unfold authTokenCheck at h
    dsimp only at h
    split at h
    · cases h
    · rename_i hclient
      rw [not_or, not_not, not_not] at hclient
      split at h
      · cases h
      · rename_i uri huri
        refine ⟨config, uri, rfl, hclient.1, hclient.2, huri, fun u hu => ?_⟩
        rw [Option.mem_def.1 hu] at h
        dsimp only at h
        split at h
        · cases h
        · rename_i heq
          exact not_not.1 heq

/-- What the rest of a token request does. -/
theorem step_redeem {k : ℕ} {form : TokenRequest} (h : s.checked[k]? = some form)
    (jwt : Option String) :
    step gh s (.redeem k jwt) =
      { s with
        pendingAuths := Function.update s.pendingAuths form.code none,
        checked := s.checked.eraseIdx k,
        redeemed := s.redeemed ++ [(form, (authTokenRedeem form jwt s.pendingAuths).1)] } := by
  simp only [step, h]
  cases jwt <;> rfl

/-- A login with a fresh code keeps what the server knows. -/
theorem Sound.login (h : s.Sound gh) (form : LoginForm) (code : String)
    (hfresh : s.FreshCode (.login form code)) :
    (OAuthServer.step gh s (.login form code)).Sound gh := by
  rcases @step_login gh s form code with heq | heq <;> rw [heq]
  · exact h
  refine ⟨?_, ?_, ?_, ?_⟩ <;> dsimp only
  · intro c uri hc
    by_cases hcode : c = code
    · subst hcode
      rw [Function.update_self] at hc
      rw [← Option.some.inj hc]
      simp
    · rw [Function.update_of_ne hcode] at hc
      exact List.mem_append_left _ (h.pending c uri hc)
  · intro c uri hc
    by_cases hcode : c = code
    · subst hcode
      exact .inl (by rw [Function.update_self]; rfl)
    · rw [Function.update_of_ne hcode]
      rcases List.mem_append.1 hc with hc | hc
      · exact h.logins c uri hc
      · exact absurd (congrArg Prod.fst (List.mem_singleton.1 hc)) hcode
  · intro r hr
    obtain ⟨⟨uri, huri⟩, hnone⟩ := h.redeemed r hr
    -- A redeemed code was handed out before, so the new one is another.
    have hcode : r.1.code ≠ code := fun hcode => hfresh uri (hcode ▸ huri)
    rw [Function.update_of_ne hcode]
    exact ⟨⟨uri, List.mem_append_left _ huri⟩, hnone⟩
  · intro r hr
    obtain ⟨config, uri, hgh, hid, hsecret, hcode, huri⟩ := h.checked r hr
    exact ⟨config, uri, hgh, hid, hsecret, List.mem_append_left _ hcode, huri⟩

/-- The checks of a token request keep what the server knows. -/
theorem Sound.check (h : s.Sound gh) (form : TokenRequest) :
    (OAuthServer.step gh s (.check form)).Sound gh := by
  simp only [OAuthServer.step]
  cases hcheck : authTokenCheck gh form s.pendingAuths with
  | error response => exact h
  | ok u =>
    obtain ⟨config, uri, hgh, hid, hsecret, hcode, huri⟩ := authTokenCheck_eq_ok hcheck
    refine ⟨h.pending, h.logins, h.redeemed, fun r hr => ?_⟩
    rcases List.mem_append.1 hr with hr | hr
    · exact h.checked r hr
    · rw [List.mem_singleton.1 hr]
      exact ⟨config, uri, hgh, hid, hsecret, h.pending _ _ hcode, huri⟩

/-- The rest of a token request keeps what the server knows. -/
theorem Sound.redeem (h : s.Sound gh) (k : ℕ) (jwt : Option String) :
    (OAuthServer.step gh s (.redeem k jwt)).Sound gh := by
  cases hform : s.checked[k]? with
  | none =>
    simp only [OAuthServer.step, hform]
    exact h
  | some form =>
    rw [step_redeem hform]
    obtain ⟨config, uri, hgh, hid, hsecret, hcode, huri⟩ :=
      h.checked form (List.mem_of_getElem? hform)
    refine ⟨?_, ?_, ?_, ?_⟩ <;> dsimp only
    · intro c u hc
      by_cases hcc : c = form.code
      · rw [hcc, Function.update_self] at hc
        exact absurd hc (Option.some_ne_none _).symm
      · rw [Function.update_of_ne hcc] at hc
        exact h.pending c u hc
    · intro c u hc
      by_cases hcc : c = form.code
      -- The code is pending no more, and redeemed instead.
      · exact .inr ⟨_, List.mem_append_right _ (List.mem_singleton_self _), hcc.symm⟩
      · rw [Function.update_of_ne hcc]
        refine (h.logins c u hc).imp_right ?_
        rintro ⟨r, hr, hrc⟩
        exact ⟨r, List.mem_append_left _ hr, hrc⟩
    · intro r hr
      rcases List.mem_append.1 hr with hr | hr
      · obtain ⟨hlogin, hnone⟩ := h.redeemed r hr
        refine ⟨hlogin, ?_⟩
        by_cases hrc : r.1.code = form.code
        · rw [hrc, Function.update_self]
        · rw [Function.update_of_ne hrc, hnone]
      · rw [List.mem_singleton.1 hr]
        exact ⟨⟨uri, hcode⟩, Function.update_self _ _ _⟩
    · exact fun r hr => h.checked r (List.mem_of_mem_eraseIdx hr)

/-- Every step keeps what the server knows, if the codes that it generates are fresh. -/
theorem Sound.step (h : s.Sound gh) {e : Event} (hfresh : s.FreshCode e) :
    (OAuthServer.step gh s e).Sound gh := by
  cases e with
  | login form code => exact h.login form code hfresh
  | check form => exact h.check form
  | redeem k jwt => exact h.redeem k jwt

/-! ## Single use -/

/-- A code that none before it redeemed yields one token at most. -/
theorem nodup_tokenCodes
    (h : s.redeemed.Pairwise fun q r => r.2.isToken → q.1.code ≠ r.1.code) :
    s.tokenCodes.Nodup := by
  rw [tokenCodes, List.Nodup, List.pairwise_map]
  refine (h.filter _).imp_of_mem fun _ hr hne => hne ?_
  exact (List.mem_filter.1 hr).2

/-- In the beginning nothing was exchanged. -/
theorem singleUse_start : start.SingleUse gh where
  entitled := fun _ h => absurd h List.not_mem_nil
  unredeemed := List.Pairwise.nil
  nodup := List.nodup_nil

/-- A step that hands out no token and forgets no login keeps the codes of single use. -/
theorem SingleUse.of_subset {s' : OAuthServer} (h : s.SingleUse gh)
    (hlogins : ∀ l ∈ s.logins, l ∈ s'.logins) (hredeemed : s'.redeemed = s.redeemed) :
    s'.SingleUse gh := by
  refine ⟨fun r hr ht => ?_, by rw [hredeemed]; exact h.unredeemed, ?_⟩
  · rw [hredeemed] at hr
    obtain ⟨config, uri, hgh, hid, hsecret, hcode, huri⟩ := h.entitled r hr ht
    exact ⟨config, uri, hgh, hid, hsecret, hlogins _ hcode, huri⟩
  · rw [tokenCodes, hredeemed]
    exact h.nodup

/-- An undisturbed step keeps the codes of single use. -/
theorem SingleUse.step (h : s.SingleUse gh) (hs : s.Sound gh) {e : Event}
    (he : s.Undisturbed e) : (OAuthServer.step gh s e).SingleUse gh := by
  cases e with
  | login form code =>
    rcases @step_login gh s form code with heq | heq <;> rw [heq]
    · exact h
    · exact h.of_subset (fun l hl => List.mem_append_left _ hl) rfl
  | check form =>
    simp only [OAuthServer.step]
    split
    · exact h
    · exact h.of_subset (fun l hl => hl) rfl
  | redeem k jwt =>
    cases hform : s.checked[k]? with
    | none =>
      simp only [OAuthServer.step, hform]
      exact h
    | some form =>
      rw [step_redeem hform]
      have hpair : (s.redeemed ++ [(form, (authTokenRedeem form jwt s.pendingAuths).1)]).Pairwise
          fun q r => r.2.isToken → q.1.code ≠ r.1.code := by
        refine List.pairwise_append.2 ⟨h.unredeemed, List.pairwise_singleton _ _, ?_⟩
        intro q hq r hr ht hcode
        rw [List.mem_singleton.1 hr] at ht hcode
        cases jwt with
        | none => cases ht
        | some token =>
          -- The code is pending, and that of `q` is not.
          have hpending := (he form hform).1
          rw [← hcode, (hs.redeemed q hq).2] at hpending
          cases hpending
      refine ⟨fun r hr ht => ?_, hpair, nodup_tokenCodes hpair⟩
      rcases List.mem_append.1 hr with hr | hr
      · exact h.entitled r hr ht
      · rw [List.mem_singleton.1 hr] at ht ⊢
        cases jwt with
        | none => cases ht
        | some token =>
          obtain ⟨config, uri, hgh, hid, hsecret, hcode, huri⟩ :=
            hs.checked form (List.mem_of_getElem? hform)
          obtain ⟨u, hu⟩ := Option.isSome_iff_exists.1 (he form hform).2
          exact ⟨config, uri, hgh, hid, hsecret, hcode, by rw [hu, huri u hu]⟩

/-- A step that leaves the codes of single use was undisturbed. -/
theorem undisturbed_of_singleUse (hs : s.Sound gh) {e : Event}
    (h : (OAuthServer.step gh s e).SingleUse gh) : s.Undisturbed e := by
  cases e with
  | login form code => trivial
  | check form => trivial
  | redeem k jwt =>
    cases jwt with
    | none => trivial
    | some token =>
      intro form hform
      rw [step_redeem hform] at h
      have hlast : (form, Response.token token) ∈ s.redeemed ++ [(form, Response.token token)] :=
        List.mem_append_right _ (List.mem_singleton_self _)
      obtain ⟨config, uri, -, -, -, hcode, huri⟩ := h.entitled _ hlast rfl
      refine ⟨?_, by rw [huri]; rfl⟩
      rcases hs.logins _ _ hcode with hpending | ⟨q, hq, hqc⟩
      · exact hpending
      · have hne := (List.pairwise_append.1 h.unredeemed).2.2 q hq _ (List.mem_singleton_self _) rfl
        exact absurd hqc hne

/-- For codes that are generated once each, the codes are of single use at every point of a run
exactly when no token is made by a removal that does not find its code, nor for a request without a
redirect URI. -/
theorem singleUse_iff (gh : Option GoogleHomeConfig) (events : List Event)
    (hfresh : Along (OAuthServer.step gh) FreshCode start events) :
    (∀ pre post, events = pre ++ post →
        (pre.foldl (OAuthServer.step gh) start).SingleUse gh) ↔
      Along (OAuthServer.step gh) Undisturbed start events :=
  along_iff_forall_of_along (F := FreshCode) (C := Undisturbed)
    (I := fun s => s.Sound gh ∧ s.SingleUse gh) (P := fun s => s.SingleUse gh) (fun _ h => h.2)
    (fun _ _ h _ hstep => undisturbed_of_singleUse h.1 hstep)
    (fun _ _ h hf hu => ⟨h.1.step hf, h.2.step h.1 hu⟩) ⟨sound_start gh, singleUse_start⟩ hfresh

/-- A configuration, a login with its credentials, and a token request with its client. -/
def sampleConfig : GoogleHomeConfig := ⟨"user", "pass", "google", "secret"⟩

/-- A login that is accepted. -/
def sampleLogin : LoginForm := ⟨"user", "pass", "https://g/r", none⟩

/-- A request that exchanges its code. -/
def sampleRequest : TokenRequest :=
  ⟨"authorization_code", "c1", "google", "secret", some "https://g/r"⟩

/-- A login, and one exchange of its code. -/
theorem singleUse_one :
    ([Event.login sampleLogin "c1", .check sampleRequest, .redeem 0 (some "t1")].foldl
      (OAuthServer.step (some sampleConfig)) start).SingleUse (some sampleConfig) := by
  refine (singleUse_iff (some sampleConfig)
    [.login sampleLogin "c1", .check sampleRequest, .redeem 0 (some "t1")]
    ⟨fun _ => List.not_mem_nil, trivial, trivial, trivial⟩).2 ⟨trivial, trivial, ?_, trivial⟩ _ []
    rfl
  intro form hform
  obtain rfl : sampleRequest = form := Option.some.inj hform
  exact ⟨rfl, rfl⟩

/-- Two requests with one code check it before either removes it, and both get a token. -/
def twoExchanges : List Event :=
  [.login sampleLogin "c1", .check sampleRequest, .check sampleRequest, .redeem 0 (some "t1"),
    .redeem 0 (some "t2")]

/-- Two requests that are checked before either is redeemed are both given tokens. -/
theorem twoExchanges_not_singleUse :
    Along (OAuthServer.step (some sampleConfig)) FreshCode start twoExchanges ∧
      ¬ (twoExchanges.foldl (OAuthServer.step (some sampleConfig)) start).SingleUse
        (some sampleConfig) := by
  refine ⟨⟨fun _ => List.not_mem_nil, trivial, trivial, trivial, trivial, trivial⟩, fun h => ?_⟩
  exact absurd h.nodup (by decide)

end OAuthServer

end Launa.Server
