import FunnyOption.Api.Authority

/-!
# Who may withdraw

The route of `RequestWithdraw` takes the id of an active session as the credential of its user. The id is
no secret: it is a hash of public data, and `ListSessions` shows it to anybody. Nor does the route look at
the time at which the session expires, as the route of orders does.

What remains is about ids of sessions that did not act for the user at the start. By what was proved of
trading authority, no such id comes to act for the user.
-/

open Foundation

namespace FunnyOption.Api

/-- The session is past its time; zero stands for no limit. -/
def Session.Expired (session : Session) (nowMillis : ℤ) : Prop :=
  session.expiresAtMillis > 0 ∧ session.expiresAtMillis < nowMillis

instance (session : Session) (nowMillis : ℤ) : Decidable (session.Expired nowMillis) :=
  inferInstanceAs (Decidable (_ ∧ _))

/-- A withdrawal does not present the id of a session that acted for `u` in `db`. -/
def Request.Withholds (u : ℤ) (db : Database) : Request → Prop
  | .withdraw header _ _ => ∀ id ∈ bearer header, lookupActiveSession db id ≠ .ok u
  | _ => True

/-- When a withdrawal is requested, no session that has expired is still active. -/
def Event.Swept (db : Database) (e : Event) : Prop :=
  match e.request with
  | .withdraw _ _ _ => ∀ r ∈ db.sessions.rows, r.2.status = .active → ¬ r.2.Expired e.nowMillis
  | _ => True

instance Request.Withholds.decidable (u : ℤ) (db : Database) : ∀ r : Request, Decidable (r.Withholds u db)
  | .withdraw header _ _ =>
    inferInstanceAs (Decidable (∀ id ∈ bearer header, lookupActiveSession db id ≠ .ok u))
  | .createTradingKeyChallenge .. | .registerTradingKey _ | .createSession _ | .revokeSession _
  | .updateProfile _ | .createOrder _ | .listSessions _ => .isTrue trivial

instance Event.Swept.decidable (db : Database) : ∀ e : Event, Decidable (e.Swept db)
  | ⟨nowMillis, .withdraw _ _ _⟩ => inferInstanceAs (Decidable
    (∀ r ∈ db.sessions.rows, r.2.status = .active → ¬ r.2.Expired nowMillis))
  | ⟨_, .createTradingKeyChallenge ..⟩ | ⟨_, .registerTradingKey _⟩ | ⟨_, .createSession _⟩
  | ⟨_, .revokeSession _⟩ | ⟨_, .updateProfile _⟩ | ⟨_, .createOrder _⟩ | ⟨_, .listSessions _⟩ =>
    .isTrue trivial

theorem lookupActiveSession_eq_ok {db : Database} {id : String} {u : ℤ} :
    lookupActiveSession db id = .ok u ↔ ∃ wallet key, db.Authority u (trimSpace id) wallet key := by
  rw [lookupActiveSession, Database.getSession]
  constructor
  · intro h
    split at h
    · exact nomatch h
    next session hsession =>
    split_ifs at h with hactive
    exact ⟨_, _, session, hsession, Except.ok.inj h, not_not.mp hactive, rfl, rfl⟩
  · rintro ⟨wallet, key, row, hrow, huser, hactive, -, -⟩
    simp only [hrow, hactive, ne_eq, not_true_eq_false, if_false, huser]

/-- The call is executed as the user of the session that the header names. -/
theorem requestWithdraw_eq_ok {db : Database} {header query : String} {call call' : Custody.WithdrawCall}
    (h : requestWithdraw db header query call = .ok call') :
    ∃ id, bearer header = some id ∧ lookupActiveSession db id = .ok call'.userID := by
  rw [requestWithdraw] at h
  split at h
  · exact nomatch h
  next userID hauth =>
  split at h
  · exact nomatch h
  obtain rfl := Except.ok.inj h
  rw [requireSessionAuth] at hauth
  split at hauth
  · exact nomatch hauth
  next id hbearer =>
  split at hauth
  · exact nomatch hauth
  next found hfound =>
  split_ifs at hauth
  obtain rfl := Except.ok.inj hauth
  exact ⟨id, hbearer, hfound⟩

/-- **Withdrawal authority.** Without a signature of the wallet of `u` and without an operator proof no
withdrawal is executed as `u`, if the requests are proper and no withdrawal presents a session that acted
for `u` at the start. And no withdrawal is executed under a session that has expired, if no such session
is active at a withdrawal. -/
theorem withdrawals_authorized (config : Config) (db : Database) (events : List Event) :
    (∀ u w, db.profiles.get u = some w → (∀ e ∈ events, e.request.Unsigned config.crypto w) →
      (∀ s e s', Takes (Server.step config) (Server.start db) events s e s' →
        e.request.Proper u w s.db ∧ e.request.Withholds u db) →
      ∀ s e s', Takes (Server.step config) (Server.start db) events s e s' →
        ∀ header query call call', e.request = .withdraw header query call →
          requestWithdraw s.db header query call = .ok call' → call'.userID ≠ u) ∧
    ((∀ s e s', Takes (Server.step config) (Server.start db) events s e s' → e.Swept s.db) →
      ∀ s e s', Takes (Server.step config) (Server.start db) events s e s' →
        ∀ header query call call', e.request = .withdraw header query call →
          requestWithdraw s.db header query call = .ok call' →
          ∀ id ∈ bearer header, ∀ session ∈ s.db.getSession id, ¬ session.Expired e.nowMillis) := by
  constructor
  · intro u w hprofile hunsigned hproper s e s' htake header query call call' hrequest hcall huser
    obtain ⟨id, hbearer, hlookup⟩ := requestWithdraw_eq_ok hcall
    rw [huser, lookupActiveSession_eq_ok] at hlookup
    obtain ⟨wallet, key, hauth⟩ := hlookup
    have hguarded := guarded_of_visits hprofile hunsigned (fun s e s' ht ↦ (hproper s e s' ht).1) s
      htake.visits
    -- the session acted for `u` at the start
    have hstart : lookupActiveSession db id = .ok u :=
      lookupActiveSession_eq_ok.mpr ⟨wallet, key, hguarded.keeps.authority _ _ _ hauth⟩
    have hwithholds := (hproper s e s' htake).2
    rw [hrequest] at hwithholds
    exact hwithholds id hbearer hstart
  · intro hswept s e s' htake header query call call' hrequest hcall id hid session hsession
    obtain ⟨id', hbearer, hlookup⟩ := requestWithdraw_eq_ok hcall
    obtain rfl : id' = id := Option.some_inj.mp (hbearer.symm.trans hid)
    obtain ⟨wallet, key, row, hrow, -, hactive, -, -⟩ := lookupActiveSession_eq_ok.mp hlookup
    obtain rfl : row = session := Option.some_inj.mp (hrow.symm.trans hsession)
    have hrows := hswept s e s' htake
    rw [Event.Swept, hrequest] at hrows
    exact hrows (trimSpace id', row) (Table.mem_rows.mpr hrow) hactive

section Samples

/-- The sample tables with an active session of user `7`. -/
def sessionDatabase : Database := { sampleDatabase with sessions := sampleSession "sess_7" sampleWallet }

/-- A withdrawal of five units. -/
def sampleCall : Custody.WithdrawCall where
  saas := true
  user := none
  body := .ok ⟨"0xd4", 5, "USDT", by decide, by decide⟩
  withdrawID := "cwdr_1"
  freezeID := "frz_1"
  withdrawID_ne := Custody.sampleWithdraw.withdrawID_ne

/-- A withdrawal under the session of user `7`. -/
def sampleWithdrawal (nowMillis : ℤ) : Event := ⟨nowMillis, .withdraw "Bearer sess_7" "" sampleCall⟩

/-- User `7` withdraws in time: it is not done as user `8`, and the session has not expired. -/
theorem withdrawals_authorized_inTime : (∀ s e s', Takes (Server.step sampleConfig) (Server.start sessionDatabase)
        [sampleWithdrawal 3000] s e s' →
      ∀ header query call call', e.request = .withdraw header query call →
        requestWithdraw s.db header query call = .ok call' → call'.userID ≠ 8) ∧
    ∀ s e s', Takes (Server.step sampleConfig) (Server.start sessionDatabase)
        [sampleWithdrawal 3000] s e s' →
      ∀ header query call call', e.request = .withdraw header query call →
        requestWithdraw s.db header query call = .ok call' →
        ∀ id ∈ bearer header, ∀ session ∈ s.db.getSession id, ¬ session.Expired e.nowMillis := by
  obtain ⟨hfirst, hsecond⟩ := withdrawals_authorized sampleConfig sessionDatabase [sampleWithdrawal 3000]
  constructor
  · refine hfirst 8 otherWallet (by decide) (fun e he ↦ ?_) fun s e s' htake ↦ ?_
    · rw [List.mem_singleton.mp he]
      exact ⟨id, id⟩
    · have hchecked : Along (Server.step sampleConfig)
          (fun s e ↦ e.request.Proper 8 otherWallet s.db ∧ e.request.Withholds 8 sessionDatabase)
          (Server.start sessionDatabase) [sampleWithdrawal 3000] := by decide
      exact hchecked.of_takes htake
  · refine hsecond fun s e s' htake ↦ ?_
    have hchecked : Along (Server.step sampleConfig) (fun s e ↦ e.Swept s.db)
        (Server.start sessionDatabase) [sampleWithdrawal 3000] := by decide
    exact hchecked.of_takes htake

/-- Anybody lists the sessions of user `7`, and withdraws twice. -/
def sampleTheft : List Event :=
  [⟨2000, .listSessions ⟨7, "", "", "", 0⟩⟩, sampleWithdrawal 3000, sampleWithdrawal 9001]

private theorem eq_ok_of_toOption {ε α : Type*} {x : Except ε α} {a : α} (h : x.toOption = some a) : x = .ok a := by
  cases x with
  | error e => exact nomatch h
  | ok b => rw [Option.some_inj.mp h]

/-- A withdrawal as user `7` is executed with an id that was shown to anybody who asked; and another one
after the session has expired. -/
theorem withdrawal_stolen : sessionDatabase.profiles.get 7 = some sampleWallet ∧
    (∀ e ∈ sampleTheft, e.request.Unsigned sampleConfig.crypto sampleWallet) ∧
    (∃ s s' call', Takes (Server.step sampleConfig) (Server.start sessionDatabase) sampleTheft s
        (sampleWithdrawal 3000) s' ∧ bearer "Bearer sess_7" = some "sess_7" ∧ "sess_7" ∈ s.shown ∧
      requestWithdraw s.db "Bearer sess_7" "" sampleCall = .ok call' ∧ call'.userID = 7) ∧
    ∃ s s' call' session, Takes (Server.step sampleConfig) (Server.start sessionDatabase) sampleTheft s
        (sampleWithdrawal 9001) s' ∧
      requestWithdraw s.db "Bearer sess_7" "" sampleCall = .ok call' ∧
      s.db.getSession "sess_7" = some session ∧ session.Expired 9001 := by
  refine ⟨by decide, fun e he ↦ ?_, ?_, ?_⟩
  · rcases List.mem_cons.mp he with rfl | he
    · exact ⟨id, id⟩
    · rcases List.mem_pair.mp he with rfl | rfl
      · exact ⟨id, id⟩
      · exact ⟨id, id⟩
  · obtain ⟨s, hs, hshown, call', hcall, huser⟩ : ∃ s ∈ exec (Server.step sampleConfig) (Server.start sessionDatabase)
        [⟨2000, .listSessions ⟨7, "", "", "", 0⟩⟩], "sess_7" ∈ s.shown ∧
        ∃ call' ∈ (requestWithdraw s.db "Bearer sess_7" "" sampleCall).toOption, call'.userID = 7 := by
      decide
    exact ⟨s, _, call', ⟨_, ⟨[sampleWithdrawal 9001], rfl⟩, hs, rfl⟩, by decide, hshown,
      eq_ok_of_toOption hcall, huser⟩
  · obtain ⟨s, hs, ⟨call', hcall, -⟩, session, hsession, hexpired⟩ : ∃ s ∈ exec (Server.step sampleConfig)
        (Server.start sessionDatabase) [⟨2000, .listSessions ⟨7, "", "", "", 0⟩⟩, sampleWithdrawal 3000],
        (∃ call' ∈ (requestWithdraw s.db "Bearer sess_7" "" sampleCall).toOption, call'.userID = 7) ∧
        ∃ session ∈ s.db.getSession "sess_7", session.Expired 9001 := by
      decide
    exact ⟨s, _, call', session, ⟨_, ⟨[], rfl⟩, hs, rfl⟩, eq_ok_of_toOption hcall, hsession, hexpired⟩

end Samples

end FunnyOption.Api
