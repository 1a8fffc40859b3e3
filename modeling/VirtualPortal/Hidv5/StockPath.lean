/-
# Which HIDv5 requests stay on the stock path

The HIDv4 dispatcher sees the requests of HIDv5 clients too, and hands those of a
descriptor that is not routed to the stock handler, which calls the entry points of
`Portal`.  It takes a request for GETVERSION by its command and lengths alone
(`v4_version_request`), and these are the command and lengths of ATTACHFINISH.
-/

import VirtualPortal.Hid.Routing
import VirtualPortal.Hidv5.Portal

namespace VirtualPortal

/-- The handler that the stock ioctl handler calls for each message it is handed;
`entry` is its table of commands. -/
def reachedIn (entry : U32 → Option Hidv5Handler) (out : List RouteEvent) :
    List (IpcMessage × Option Hidv5Handler) :=
  out.filterMap fun
    | .stock (.ioctl (some m)) => some (m, entry m.ioctl.command)
    | _ => none

namespace Threads

variable {σ : Threads} {fd : U32}

/-- The route flag of the descriptor is clear. -/
def Unrouted (σ : Threads) (fd : U32) : Prop :=
  ∀ i : Fin 16, fd.toNat = i → σ.hid.route i = false

/-- The dispatcher is called for one message at a time, and every message for the
descriptor is an ioctl that one of the handlers accepts. -/
def Speaks (fd : U32) (σ : Threads) : ThreadStep → Prop
  | .arrive a =>
      σ.dispatcher = .waiting ∧
        ∀ m, a.msg = some m → m.fd = fd →
          a = .ioctl (some m) ∧ ∃ (h : Hidv5Handler) (mem : Mem), h.accepts mem m
  | _ => True

/-- The step leaves the descriptor unrouted, and a request for the descriptor reaches
each handler that accepts it. -/
def StaysStock (entry : U32 → Option Hidv5Handler) (fd : U32) (σ : Threads) (s : ThreadStep) :
    Prop :=
  (σ.step s).1.Unrouted fd ∧
    ∀ m, s = .arrive (.ioctl (some m)) → m.fd = fd →
      ∀ (h : Hidv5Handler) (mem : Mem), h.accepts mem m →
        reachedIn entry (σ.step s).2 = [(m, some h)]

/-- The step is an ATTACHFINISH for the descriptor. -/
def AttachFinishes (fd : U32) (s : ThreadStep) : Prop :=
  ∃ m, s = .arrive (.ioctl (some m)) ∧ m.fd = fd ∧
    ∃ mem, Hidv5Handler.attachfinish.accepts mem m

/-! ### The two predicates -/

/-- Of the requests the handlers accept, `v4_version_request` takes those of
ATTACHFINISH and no others. -/
theorem versionRequest_of_accepts {h : Hidv5Handler} {mem : Mem} {m : IpcMessage}
    (hacc : h.accepts mem m = true) : v4VersionRequest m = true ↔ h = .attachfinish := by
  simp only [Hidv5Handler.accepts, Bool.and_eq_true, decide_eq_true_eq] at hacc
  obtain ⟨⟨-, hcommand⟩, hvalid⟩ := hacc
  constructor
  · intro hversion
    simp only [v4VersionRequest, Bool.and_eq_true, decide_eq_true_eq, hcommand] at hversion
    cases h <;> first | rfl | exact absurd hversion.1.1 (by decide)
  · rintro rfl
    simp only [Hidv5Handler.valid, Bool.and_eq_true, decide_eq_true_eq] at hvalid
    simp [v4VersionRequest, hcommand, Hidv5Handler.command, hvalid]

/-- A request that a handler accepts is an ioctl with its command. -/
theorem command_of_accepts {h : Hidv5Handler} {mem : Mem} {m : IpcMessage}
    (hacc : h.accepts mem m = true) : m.command = iosIoctl ∧ m.ioctl.command = h.command := by
  simp only [Hidv5Handler.accepts, Bool.and_eq_true, decide_eq_true_eq] at hacc
  exact hacc.1

/-- The dispatcher at a request for an unrouted descriptor. -/
theorem arrive_unrouted {m : IpcMessage} (hroute : σ.Unrouted fd) (hfd : m.fd = fd)
    (hcommand : m.command = iosIoctl) :
    (σ.arrive (.ioctl (some m)) = (σ, [.stock (.ioctl (some m))]) ∧
        (fd.toNat < 16 → v4VersionRequest m = false)) ∨
      ((σ.arrive (.ioctl (some m))).2 = [.routed (.ioctl (some m))] ∧ fd.toNat < 16 ∧
        v4VersionRequest m = true) := by
  subst hfd
  unfold arrive
  dsimp only
  by_cases hlt : m.fd.toNat < 16
  · have hflag : σ.hid.route ⟨m.fd.toNat, hlt⟩ = false := hroute ⟨m.fd.toNat, hlt⟩ rfl
    have hfd : System.portalFd (some m) = some (m, ⟨m.fd.toNat, hlt⟩) := portalFd_eq_some rfl
    rw [hfd]
    dsimp only
    cases hversion : v4VersionRequest m
    · rw [if_pos (.inr ⟨by simp [hflag], by simp⟩)]
      exact .inl ⟨rfl, fun _ => rfl⟩
    · rw [if_neg (by simp [hcommand])]
      exact .inr ⟨rfl, hlt, rfl⟩
  · rw [portalFd_eq_none fun i hi => hlt (hi ▸ i.isLt)]
    exact .inl ⟨rfl, fun h => absurd h hlt⟩

/-! ### The route flag of the descriptor -/

/-- The flag of the descriptor is clear, and the dispatcher is not going to set it. -/
def Off (σ : Threads) (fd : U32) : Prop :=
  ∀ i : Fin 16, fd.toNat = i → σ.hid.route i = false ∧ σ.dispatcher.opening i = false

/-- A descriptor that the plugin has not taken is not routed. -/
theorem Off.unrouted (h : σ.Off fd) : σ.Unrouted fd := fun i hi => (h i hi).1

/-- A message leaves the flags, and the dispatcher goes on with it or not at all. -/
theorem arrive_dispatcher (σ : Threads) (a : Arrival) :
    (σ.arrive a).1.hid = σ.hid ∧
      ((σ.arrive a).1.dispatcher = σ.dispatcher ∨
        ∃ (m : IpcMessage) (i : Fin 16), a.msg = some m ∧ m.fd.toNat = i ∧
          ((σ.arrive a).1.dispatcher = .sendIoctl m i ∨
            (σ.arrive a).1.dispatcher = .sendClose m)) := by
  rcases a with ((_ | m) | (_ | m))
  · exact ⟨rfl, .inl rfl⟩
  · unfold arrive
    dsimp only
    by_cases hfd : ∃ i : Fin 16, m.fd.toNat = i
    · obtain ⟨i, hi⟩ := hfd
      rw [portalFd_eq_some hi]
      dsimp only
      split_ifs
      · exact ⟨rfl, .inl rfl⟩
      · exact ⟨rfl, .inr ⟨m, i, rfl, hi, .inl rfl⟩⟩
    · rw [portalFd_eq_none fun i hi => hfd ⟨i, hi⟩]
      exact ⟨rfl, .inl rfl⟩
  · exact ⟨rfl, .inl rfl⟩
  · unfold arrive
    dsimp only
    by_cases hfd : ∃ i : Fin 16, m.fd.toNat = i
    · obtain ⟨i, hi⟩ := hfd
      rw [portalFd_eq_some hi]
      dsimp only
      split_ifs
      · exact ⟨rfl, .inr ⟨m, i, rfl, hi, .inr rfl⟩⟩
      · exact ⟨rfl, .inl rfl⟩
    · rw [portalFd_eq_none fun i hi => hfd ⟨i, hi⟩]
      exact ⟨rfl, .inl rfl⟩

/-- A message for another descriptor. -/
theorem Off.arrive {a : Arrival} (h : σ.Off fd) (hother : ∀ m, a.msg = some m → m.fd ≠ fd) :
    (σ.arrive a).1.Off fd := by
  obtain ⟨hhid, hdispatcher⟩ := σ.arrive_dispatcher a
  intro i hi
  rw [hhid]
  refine ⟨(h i hi).1, ?_⟩
  obtain hsame | ⟨m, i', hm, hi', hsend | hsend⟩ := hdispatcher
  · rw [hsame]
    exact (h i hi).2
  · rw [hsend]
    refine decide_eq_false fun heq => hother m hm (BitVec.eq_of_toNat_eq ?_)
    rw [hi', hi, heq]
  · rw [hsend]
    rfl

/-- A step of the dispatcher takes no descriptor. -/
theorem Off.dispatch {start send : Int} (h : σ.Off fd) : (σ.dispatch start send).1.Off fd := by
  obtain ⟨hid, queue, dispatcher, worker⟩ := σ
  intro i hi
  obtain ⟨hflag, hopening⟩ := h i hi
  cases dispatcher with
  | waiting => exact ⟨hflag, hopening⟩
  | sendIoctl m i' =>
      unfold Threads.dispatch
      dsimp only
      split_ifs
      · exact ⟨hflag, rfl⟩
      · exact ⟨hflag, hopening⟩
  | setRoute i' =>
      have hne : i ≠ i' := fun heq => of_decide_eq_false hopening heq.symm
      exact ⟨(Function.update_of_ne hne ..).trans hflag, rfl⟩
  | sendClose m =>
      unfold Threads.dispatch
      dsimp only
      split_ifs <;> exact ⟨hflag, rfl⟩

/-- The worker sets no flag. -/
theorem work_route (σ : Threads) (io : HidIo) {i : Fin 16} (h : σ.hid.route i = false) :
    (σ.work io).1.hid.route i = false := by
  obtain ⟨hid, queue, dispatcher, worker⟩ := σ
  cases worker with
  | waiting =>
      cases queue with
      | nil => exact h
      | cons event queue =>
          cases event with
          | tick => exact (congrFun (hid.v4Tick_route io.line io.send) i).trans h
          | complete => exact (congrFun hid.e09Complete_unmailed.same.route i).trans h
          | request msg =>
              cases msg with
              | none => exact h
              | some msg =>
                  show (process _ io.mem (some msg) queue).1.hid.route i = false
                  unfold process
                  dsimp only
                  by_cases hclose : msg.fd.toNat < 16 ∧ msg.command = iosClose
                  · rw [dif_pos hclose]
                    exact h
                  · rw [dif_neg hclose]
                    exact (congrFun (hid.v4Process_route hclose) i).trans h
  | zeroed msg i' =>
      show Function.update hid.route i' false i = false
      rw [Function.update_apply]
      split_ifs
      · rfl
      · exact h
  | unrouted msg i' => exact h

/-- A step that is no ATTACHFINISH. -/
theorem Off.step {entry : U32 → Option Hidv5Handler} {s : ThreadStep} (h : σ.Off fd)
    (hentry : ∀ h : Hidv5Handler, entry h.command = some h) (hspeaks : σ.Speaks fd s)
    (hattach : 16 ≤ fd.toNat ∨ ¬ AttachFinishes fd s) :
    (σ.step s).1.Off fd ∧ σ.StaysStock entry fd s := by
  have hoff : (σ.step s).1.Off fd ∧ ∀ m, s = .arrive (.ioctl (some m)) → m.fd = fd →
      ∀ (h : Hidv5Handler) (mem : Mem), h.accepts mem m →
        reachedIn entry (σ.step s).2 = [(m, some h)] := by
    cases s with
    | dispatcher start send => exact ⟨h.dispatch, nofun⟩
    | worker io =>
        have hdispatcher := (σ.work_backlog io).2
        refine ⟨fun i hi => ⟨σ.work_route io (h i hi).1, ?_⟩, nofun⟩
        show (σ.work io).1.dispatcher.opening i = false
        rw [hdispatcher]
        exact (h i hi).2
    | post event => cases event <;> exact ⟨h, nofun⟩
    | storage st => exact ⟨h, nofun⟩
    | arrive a =>
        by_cases hmsg : ∃ m, a.msg = some m ∧ m.fd = fd
        · obtain ⟨m, hm, hfd⟩ := hmsg
          obtain ⟨rfl, handler, mem, hacc⟩ := hspeaks.2 m hm hfd
          have hnot : ¬ (fd.toNat < 16 ∧ v4VersionRequest m = true) := by
            rintro ⟨hlt, hversion⟩
            obtain rfl := (versionRequest_of_accepts hacc).mp hversion
            exact hattach.elim (absurd hlt ∘ not_lt.mpr) fun hno => hno ⟨m, rfl, hfd, mem, hacc⟩
          obtain ⟨hstep, -⟩ | ⟨-, hversion⟩ :=
            arrive_unrouted h.unrouted hfd (command_of_accepts hacc).1
          · show (σ.arrive _).1.Off fd ∧ _
            refine ⟨by rwa [hstep], fun m' hm' _ handler' mem' hacc' => ?_⟩
            obtain rfl : m = m' := by injection hm' with hm'; injection hm' with hm'; injection hm'
            show reachedIn entry (σ.arrive _).2 = _
            rw [hstep, ← hentry handler', ← (command_of_accepts hacc').2]
            rfl
          · exact absurd hversion hnot
        · refine ⟨h.arrive fun m hm hfd => hmsg ⟨m, hm, hfd⟩, fun m hm hfd => ?_⟩
          obtain rfl := ThreadStep.arrive.inj hm
          exact absurd ⟨m, rfl, hfd⟩ hmsg
  exact ⟨hoff.1, hoff.1.unrouted, hoff.2⟩

/-! ### Runs -/

/-- Every request of an unrouted descriptor reaches the handlers that accept it, and the
descriptor stays unrouted, exactly in the runs that have no ATTACHFINISH for it, or if
the descriptor is none of the portal. -/
theorem stays_stock_iff {entry : U32 → Option Hidv5Handler} {steps : List ThreadStep}
    (hentry : ∀ h : Hidv5Handler, entry h.command = some h) (hroute : σ.Unrouted fd)
    (hwaiting : σ.dispatcher = .waiting) (h : Run.Every step (Speaks fd) σ steps) :
    Run.Every step (StaysStock entry fd) σ steps ↔
      16 ≤ fd.toNat ∨ ∀ s ∈ steps, ¬ AttachFinishes fd s := by
  constructor
  · intro hstays
    by_contra hnot
    obtain ⟨hlt, hattach⟩ := not_or.mp hnot
    apply hattach
    clear hattach hnot hwaiting
    induction steps generalizing σ with
    | nil => exact fun s hs => absurd hs List.not_mem_nil
    | cons s steps ih =>
        intro s' hs'
        obtain rfl | hs' := List.mem_cons.mp hs'
        · rintro ⟨m, rfl, hfd, mem, hacc⟩
          have hreached := hstays.1.2 m rfl hfd _ mem hacc
          have hversion := (versionRequest_of_accepts hacc).mpr rfl
          obtain ⟨-, hnot⟩ | ⟨hout, -⟩ :=
            arrive_unrouted hroute hfd (command_of_accepts hacc).1
          · exact absurd (hversion.symm.trans (hnot (not_le.mp hlt))) (by decide)
          · rw [show (σ.step (.arrive (.ioctl (some m)))).2 = _ from hout] at hreached
            exact nomatch hreached
        · exact ih hstays.1.1 h.2 hstays.2 s' hs'
  · intro hattach
    have hoff : σ.Off fd := by
      refine fun i hi => ⟨hroute i hi, ?_⟩
      rw [hwaiting]
      rfl
    have hC : Run.Every step
        (fun σ s => σ.Speaks fd s ∧ (16 ≤ fd.toNat ∨ ¬ AttachFinishes fd s)) σ steps := by
      clear hoff hwaiting hroute
      induction steps generalizing σ with
      | nil => trivial
      | cons s steps ih =>
          refine ⟨⟨h.1, hattach.imp_right fun hno => hno s List.mem_cons_self⟩, ?_⟩
          exact ih h.2 (hattach.imp_right fun hno s hs => hno s (List.mem_cons_of_mem _ hs))
    exact Run.every_of_every (P := fun σ => σ.Off fd)
      (fun σ s hs hσ => (hσ.step hentry hs.1 hs.2).1)
      (fun σ s hs hσ => (hσ.step hentry hs.1 hs.2).2) hC hoff

end Threads

/-- The commands of the handlers. -/
def stockEntry (command : U32) : Option Hidv5Handler :=
  [.getversion, .getdevicechange, .getdevparams, .attachfinish, .suspendResume,
    .cancelEndpoint].find? fun h => h.command = command

/-- ATTACHFINISH on descriptor 3. -/
def attachFinish : IpcMessage := ⟨0x400, iosIoctl, 3, ⟨6, 0, 0, 0, 0⟩⟩

/-- GETVERSION of HIDv5 on descriptor 3. -/
def hidv5Version : IpcMessage := ⟨0x500, iosIoctl, 3, ⟨0, 0, 0, 0x2000, 0x20⟩⟩

/-- A request for the HIDv5 version stays with the stock module. -/
theorem stays_stock_iff_hidv5Version :
    Run.Every Threads.step (Threads.StaysStock stockEntry 3) (Threads.start .ok)
      [.arrive (.ioctl (some hidv5Version))] := by
  have hroute : (Threads.start .ok).Unrouted 3 := fun i hi => by
    obtain rfl : i = 3 := Fin.ext hi.symm
    decide
  have hspeaks : Run.Every Threads.step (Threads.Speaks 3) (Threads.start .ok)
      [.arrive (.ioctl (some hidv5Version))] := by
    refine ⟨⟨rfl, fun m hm _ => ?_⟩, trivial⟩
    obtain rfl := Option.some.inj hm
    exact ⟨rfl, .getversion, fun _ => 0, by decide⟩
  have hentry : ∀ h : Hidv5Handler, stockEntry h.command = some h := fun h => by cases h <;> decide
  refine (Threads.stays_stock_iff hentry hroute rfl hspeaks).mpr (.inr fun s hs => ?_)
  rintro ⟨m, rfl, -, mem, hacc⟩
  obtain rfl : m = hidv5Version := by simpa using hs
  exact absurd hacc (by simp [Hidv5Handler.accepts, hidv5Version, Hidv5Handler.command])

/-- An ATTACHFINISH goes to the worker, and the descriptor is routed from then on. -/
theorem attachFinish_routed :
    Run.Every Threads.step (Threads.Speaks 3) (Threads.start .ok)
        [.arrive (.ioctl (some attachFinish)), .dispatcher 0 0, .dispatcher 0 0] ∧
      ¬ Run.Every Threads.step (Threads.StaysStock stockEntry 3) (Threads.start .ok)
        [.arrive (.ioctl (some attachFinish)), .dispatcher 0 0, .dispatcher 0 0] ∧
      (Run.final Threads.step (Threads.start .ok)
        [.arrive (.ioctl (some attachFinish)), .dispatcher 0 0, .dispatcher 0 0]).hid.route 3 =
          true := by
  refine ⟨⟨⟨rfl, fun m hm _ => ?_⟩, trivial, trivial, trivial⟩, fun h => ?_, by decide⟩
  · obtain rfl := Option.some.inj hm
    exact ⟨rfl, .attachfinish, fun _ => 0, by decide⟩
  · exact absurd (h.1.2 attachFinish rfl rfl .attachfinish (fun _ => 0) (by decide)) (by decide)

end VirtualPortal
