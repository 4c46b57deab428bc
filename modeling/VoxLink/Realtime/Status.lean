import VoxLink.Realtime.Members

/-! The stored status of a user is what the last handler to write it has written. It agrees with his
sockets when that handler wrote what they give him. -/

namespace VoxLink

open ProofKit Prog

namespace Task

variable {t : Task} {phase phase' : Phase} {p : Pool (Task × Phase) Gateway} {k : Nat}
  {g g' : Gateway} {u : Uuid}

/-- A handler may still write the status of `u`. -/
def writesLater (p : Pool (Task × Phase) Gateway) (u : Uuid) : Bool :=
  p.jobs.any (·.2.writes u)

/-- The turn writes a status that the sockets of the user do not give him, and no other handler may
write it again. -/
def misreports (p : Pool (Task × Phase) Gateway) (k : Nat) : Bool :=
  match p.jobs[k]? with
  | some (_, .online user) =>
    !p.state.attached user.id && !(p.others k).any (·.2.writes user.id)
  | some (_, .offline user) =>
    p.state.attached user.id && !(p.others k).any (·.2.writes user.id)
  | _ => false

/-- The stored status of a user is the one that his sockets give him, or may still be written. -/
def Reported (p : Pool (Task × Phase) Gateway) : Prop :=
  ∀ x ∈ p.state.server.db.users,
    x.status = p.state.presence x.id ∨ writesLater p x.id = true

theorem attached_iff : g.attached u = true ↔
    ∃ s ∈ g.sockets, ∃ user, s.user = some user ∧ user.id = u := by
  simp [Gateway.attached, Option.any_eq_true]

theorem presence_eq (h : g'.attached u = g.attached u) : g'.presence u = g.presence u := by
  rw [Gateway.presence, h, Gateway.presence]

/-- A turn that leaves the rows of users alone. -/
theorem Reported.sameRows (h : Reported p) (hk : p.jobs[k]? = some (t, phase))
    (husers : g'.server.db.users = p.state.server.db.users)
    (hattached : ∀ u, g'.attached u = p.state.attached u ∨ phase'.writes u = true)
    (hwrites : ∀ u ∈ ids p.state, phase.writes u = true → phase'.writes u = true) :
    Reported ⟨p.jobs.set k (t, phase'), g'⟩ := by
  intro x hx
  replace hx : x ∈ p.state.server.db.users := husers ▸ hx
  show x.status = g'.presence x.id ∨ (p.jobs.set k (t, phase')).any (·.2.writes x.id) = true
  rw [set_any _ _ hk, Bool.or_eq_true]
  rcases hattached x.id with hsame | hwrite
  · rw [presence_eq hsame]
    rcases h x hx with hstatus | hlater
    · exact .inl hstatus
    · rw [writesLater, jobs_any _ hk, Bool.or_eq_true] at hlater
      rcases hlater with hself | hothers
      · exact .inr (.inl (hwrites x.id (List.mem_map_of_mem hx) hself))
      · exact .inr (.inr hothers)
  · exact .inr (.inl hwrite)

/-- A turn that leaves sockets and rows of users alone. -/
theorem Reported.still (h : Reported p) (hk : p.jobs[k]? = some (t, phase))
    (husers : g'.server.db.users = p.state.server.db.users)
    (hsockets : g'.sockets = p.state.sockets)
    (hwrites : ∀ u, phase.writes u = false) : Reported ⟨p.jobs.set k (t, phase'), g'⟩ := by
  apply h.sameRows hk husers
  · intro u
    left
    rw [Gateway.attached, hsockets, Gateway.attached]
  · intro u _ hwrite
    rw [hwrites] at hwrite
    exact nomatch hwrite

/-- A turn that writes the status of `user`. -/
theorem Reported.writes {user : Profile} {status : String} (h : Reported p)
    (hk : p.jobs[k]? = some (t, phase)) (hsockets : g'.sockets = p.state.sockets)
    (husers : g'.server.db.users = Rows.modify (fun x : User => decide (x.id = user.id))
      (User.setStatus t.env status) p.state.server.db.users)
    (hstatus : status = p.state.presence user.id ∨
      (p.others k).any (·.2.writes user.id) = true)
    (hself : ∀ u, phase.writes u = true → user.id = u) :
    Reported ⟨p.jobs.set k (t, phase'), g'⟩ := by
  have hattached : ∀ u, g'.attached u = p.state.attached u := by
    intro u
    rw [Gateway.attached, hsockets, Gateway.attached]
  intro x' hx'
  replace hx' : x' ∈ g'.server.db.users := hx'
  rw [husers] at hx'
  obtain ⟨x, hx, rfl⟩ := Rows.mem_modify.mp hx'
  show _ = g'.presence _ ∨ (p.jobs.set k (t, phase')).any (·.2.writes _) = true
  rw [set_any _ _ hk, Bool.or_eq_true, presence_eq (hattached _)]
  split_ifs with hid
  · have hid : x.id = user.id := of_decide_eq_true hid
    show status = p.state.presence x.id ∨ phase'.writes x.id = true ∨
      (p.others k).any (·.2.writes x.id) = true
    rw [hid]
    rcases hstatus with heq | hothers
    · exact .inl heq
    · exact .inr (.inr hothers)
  · rcases h x hx with heq | hlater
    · exact .inl heq
    · rw [writesLater, jobs_any _ hk, Bool.or_eq_true] at hlater
      rcases hlater with hwrite | hothers
      · exact absurd (decide_eq_true (hself _ hwrite).symm) hid
      · exact .inr (.inr hothers)

theorem attached_modify {client : String} {f : Socket → Socket}
    (h : g'.sockets = Rows.modify (fun s : Socket => decide (s.id = client)) f g.sockets)
    (hf : ∀ s, (f s).user = s.user) (u : Uuid) : g'.attached u = g.attached u := by
  have husers : g'.sockets.map (·.user) = g.sockets.map (·.user) := by
    rw [h]
    exact Rows.map_modify fun s _ => hf s
  have hany : ∀ g : Gateway, g.attached u = (g.sockets.map (·.user)).any (·.any (·.id = u)) := by
    intro g
    rw [Gateway.attached, List.any_map]
    rfl
  rw [hany, husers, ← hany]

/-- The end of sockets that have no account but `user`'s. -/
theorem attached_remove {client : String}
    (h : g'.sockets = Rows.remove (fun s : Socket => decide (s.id = client)) g.sockets)
    (hgone : ∀ s ∈ g.sockets, s.id = client → ∀ user, s.user = some user → user.id ≠ u) :
    g'.attached u = g.attached u := by
  rw [Bool.eq_iff_iff, attached_iff, attached_iff, h]
  constructor
  · rintro ⟨s, hs, huser⟩
    exact ⟨s, (Rows.mem_remove.mp hs).1, huser⟩
  · rintro ⟨s, hs, user, huser, hid⟩
    refine ⟨s, Rows.mem_remove.mpr ⟨hs, ?_⟩, user, huser, hid⟩
    exact decide_eq_false fun hclient => hgone s hs hclient user huser hid

/-- The end of a socket without an account. -/
theorem Reported.guestGone {client : String} (h : Reported p)
    (hk : p.jobs[k]? = some (t, phase)) (husers : g'.server.db.users = p.state.server.db.users)
    (hsockets : g'.sockets =
      Rows.remove (fun s : Socket => decide (s.id = client)) p.state.sockets)
    (hguest : ∀ s ∈ p.state.sockets, s.id = client → s.user = none)
    (hwrites : ∀ u ∈ ids p.state, phase.writes u = true → phase'.writes u = true) :
    Reported ⟨p.jobs.set k (t, phase'), g'⟩ := by
  apply h.sameRows hk husers _ hwrites
  intro u
  left
  apply attached_remove hsockets
  intro s hs hid user huser
  exact nomatch (hguest s hs hid).symm.trans huser

/-- A socket that gets its account had none. -/
theorem attaches_reported {user : Profile} (horderly : Orderly p) (h : Reported p)
    (hk : p.jobs[k]? = some (t, .account user.id))
    (hafter : After (Rows.modify (·.id = t.client) (Socket.attach user) p.state.sockets)
      p.state.server.redis p.state.server.db.users g') :
    Reported ⟨p.jobs.set k (t, .online user), g'⟩ := by
  have hguest := (horderly.fits _ (List.mem_of_getElem? hk)).attaching rfl
  refine h.sameRows hk hafter.users (fun u => ?_) fun _ _ => id
  by_cases hid : user.id = u
  · exact .inr (decide_eq_true hid)
  · left
    rw [Bool.eq_iff_iff, attached_iff, attached_iff, hafter.sockets]
    constructor
    · rintro ⟨s', hs', user', huser', hid'⟩
      obtain ⟨s, hs, rfl⟩ := Rows.mem_modify.mp hs'
      split_ifs at huser'
      · exact absurd (Option.some.inj huser' ▸ hid') hid
      · exact ⟨s, hs, user', huser', hid'⟩
    · rintro ⟨s, hs, user', huser', hid'⟩
      have hne : s.id ≠ t.client := fun hclient => nomatch (hguest s hs hclient).symm.trans huser'
      exact ⟨s, Rows.mem_modify.mpr ⟨s, hs, by simp [hne]⟩, user', huser', hid'⟩

theorem turns_reported (horderly : Orderly p) (h : Reported p)
    (hk : p.jobs[k]? = some (t, phase)) (hfresh : freshClient p k = true)
    (hright : misreports p k = false) (hturns : Turns t p.state g' phase phase') :
    Reported ⟨p.jobs.set k (t, phase'), g'⟩ := by
  have hfits := horderly.fits _ (List.mem_of_getElem? hk)
  cases hturns with
  | calm hcalm hafter => exact h.still hk hafter.users hafter.sockets hcalm.writes
  | opens hconnects hafter =>
    apply h.sameRows hk hafter.users _ (fun _ _ h => by cases h)
    intro u
    left
    simp [Gateway.attached, hafter.sockets]
  | declines hconnects hafter =>
    apply h.guestGone hk hafter.users hafter.sockets _ (fun _ _ h => by cases h)
    intro s hs hid
    simp only [freshClient, hk, hconnects, Bool.not_true, Bool.false_or, Bool.and_eq_true,
      List.all_eq_true, decide_eq_true_eq] at hfresh
    exact absurd hid (hfresh.1 s hs)
  | attaches hid hmem hafter =>
    subst hid
    exact attaches_reported horderly h hk hafter
  | refuses hmem hafter =>
    apply h.guestGone hk hafter.users hafter.sockets (hfits.attaching rfl)
    intro u hu hwrite
    exact absurd (of_decide_eq_true hwrite ▸ hu) hmem
  | comes hafter =>
    apply h.writes hk hafter.sockets hafter.users _ fun _ hwrite => of_decide_eq_true hwrite
    simp only [misreports, hk, Bool.and_eq_false_iff, Bool.not_eq_false'] at hright
    exact hright.imp_left fun hattached => by rw [Gateway.presence, if_pos hattached]
  | vanishes hmem hafter => exact absurd (hfits.owner _ rfl) hmem
  | @ends user haccount hafter =>
    apply h.sameRows hk hafter.users _ (fun _ _ h => by cases h)
    intro u
    by_cases hid : user.id = u
    · exact .inr (decide_eq_true hid)
    · left
      apply attached_remove hafter.sockets
      intro s hs hclient user' huser'
      have huser := account_user horderly.nodup haccount hs hclient
      exact Option.some.inj (huser.symm.trans huser') ▸ hid
  | endsUnknown haccount hcalm hafter =>
    exact h.guestGone hk hafter.users hafter.sockets
      (fun s hs hid => account_guest horderly.nodup haccount hs hid) (fun _ _ h => by cases h)
  | goes hafter =>
    apply h.writes hk hafter.sockets hafter.users _ fun _ hwrite => of_decide_eq_true hwrite
    simp only [misreports, hk, Bool.and_eq_false_iff, Bool.not_eq_false'] at hright
    exact hright.imp_left fun hattached => by
      rw [Gateway.presence, if_neg (by rw [hattached]; exact Bool.false_ne_true)]
  | stops hmem hafter => exact absurd (hfits.owner _ rfl) hmem
  | lists hafter => exact h.still hk hafter.users hafter.sockets fun _ => rfl
  | aside hcalm hf hafter =>
    apply h.sameRows hk hafter.users fun u => .inl (attached_modify hafter.sockets hf.user u)
    intro u _ hwrite
    rw [hcalm.writes] at hwrite
    cases hwrite
  | asks haccount hafter => exact h.still hk hafter.users hafter.sockets fun _ => rfl
  | enters hafter =>
    exact h.sameRows hk hafter.users
      (fun u => .inl (attached_modify hafter.sockets (fun _ => rfl) u)) (fun _ _ h => by cases h)
  | leaves haccount hafter =>
    exact h.sameRows hk hafter.users
      (fun u => .inl (attached_modify hafter.sockets (fun _ => rfl) u)) (fun _ _ h => by cases h)
  | added hworked hafter => exact h.still hk hafter.users hafter.sockets fun _ => rfl
  | dropped hworked hafter => exact h.still hk hafter.users hafter.sockets fun _ => rfl
  | forgets hworked hafter => exact h.still hk hafter.users hafter.sockets fun _ => rfl

theorem turn_reported (horderly : Orderly p) (h : Reported p) (hfresh : freshClient p k = true)
    (hright : misreports p k = false) : Reported (p.turn move k).2 :=
  turn_turns h fun _ _ _ _ hk hturns => turns_reported horderly h hk hfresh hright hturns

/-! ### Runs -/

theorem resting_writes {phase : Phase} (h : phase.resting = true) (u : Uuid) :
    phase.writes u = false := by
  cases phase with
  | idle | finished => rfl
  | _ => exact nomatch h

theorem waiting_reported {ts : List Task} (hsockets : g.sockets = [])
    (hoffline : ∀ x ∈ g.server.db.users, x.status = "offline") : Reported (waiting ts g) := by
  intro x hx
  left
  simp [Gateway.presence, Gateway.attached, waiting, hsockets, hoffline x hx]

/-- When no handler is running, each user has the status that his sockets give him, if every status
that was written against the sockets could still be written again. -/
theorem status_of_sockets (ts : List Task) (g : Gateway) (ks : List Nat) (hsockets : g.sockets = [])
    (hoffline : ∀ x ∈ g.server.db.users, x.status = "offline")
    (hfresh : Along (Pool.turn move) (fun p k => freshClient p k = true) (waiting ts g) ks)
    (hright : Along (Pool.turn move) (fun p k => misreports p k = false) (waiting ts g) ks)
    (hrest : ∀ l ∈ (run (Pool.turn move) (waiting ts g) ks).jobs, l.2.resting = true) :
    let g' := (run (Pool.turn move) (waiting ts g) ks).state
    ∀ x ∈ g'.server.db.users, x.status = g'.presence x.id := by
  intro g' x hx
  have hend := (along_and.mpr ⟨hfresh, hright⟩).invariant
    (I := fun p => Orderly p ∧ Reported p)
    (fun p k ⟨ho, hp⟩ ⟨hf, hr⟩ => ⟨turn_orderly ho hf, turn_reported ho hp hf hr⟩)
    ⟨waiting_orderly hsockets, waiting_reported hsockets hoffline⟩
  apply (hend.2 x hx).resolve_right
  intro hlater
  obtain ⟨l, hl, hwrite⟩ := List.any_eq_true.mp hlater
  rw [resting_writes (hrest l hl)] at hwrite
  exact nomatch hwrite

/-- Alice has connected and disconnected. -/
def aliceGone : Gateway :=
  (run (Pool.turn move)
    (waiting [aliceConnects 4 "first", ⟨sampleEnv 5, "first", .disconnection⟩]
      ⟨channelOpened, [], []⟩) (wholly 0 ++ wholly 1)).state

/-- Alice connects with two sockets and disconnects one. -/
def oneOfTwo : List Task :=
  [aliceConnects 6 "second", aliceConnects 7 "third", ⟨sampleEnv 8, "second", .disconnection⟩]

theorem bothConnected_status :
    let g' := (run (Pool.turn move) (waiting oneOfTwo aliceGone) (wholly 0 ++ wholly 1)).state
    (∀ x ∈ g'.server.db.users, x.status = g'.presence x.id) ∧ g'.attached alice.id = true :=
  ⟨status_of_sockets oneOfTwo aliceGone (wholly 0 ++ wholly 1) (by decide +kernel)
    (by decide +kernel) (by decide +kernel) (by decide +kernel) (by decide +kernel),
    by decide +kernel⟩

theorem oneDisconnected_status :
    let start := waiting oneOfTwo aliceGone
    let p := run (Pool.turn move) start (wholly 0 ++ wholly 1 ++ wholly 2)
    aliceGone.sockets = [] ∧ (∀ x ∈ aliceGone.server.db.users, x.status = "offline") ∧
      Along (Pool.turn move) (fun p k => freshClient p k = true) start
        (wholly 0 ++ wholly 1 ++ wholly 2) ∧
      (∀ l ∈ p.jobs, l.2.resting = true) ∧
      ¬∀ x ∈ p.state.server.db.users, x.status = p.state.presence x.id := by
  decide +kernel

end Task

end VoxLink
