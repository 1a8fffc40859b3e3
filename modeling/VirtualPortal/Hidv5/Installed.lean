/-
# What the installers can do

The six installers, each stated once (`Installs`): an installer takes care of a group of
entries, one or, for the lifecycle handlers, two.  It changes only the words and results
of its group, a word only from its original to the branch, and it succeeds exactly if
every result of the group says so afterwards.  Once all of them do it does nothing.

An installer that fails is tried again at the next request.  It never succeeds if a word
of its group is not what it was, be it another module's or one of the two words of the
lifecycle handlers after the store of the other one did not take (`Blocked`).
-/

import VirtualPortal.Hidv5.Install
import VirtualPortal.Lib.Replaced

namespace VirtualPortal

/-- Different hooks are at different places. -/
theorem Hook.site_injective : Function.Injective Hook.site := by
  rintro (((_ | _ | _ | _ | _ | _) | _ | _) | _ | _ | _)
    (((_ | _ | _ | _ | _ | _) | _ | _) | _ | _ | _) h <;>
    first | rfl | exact absurd h (by decide)

namespace Layout

variable (L : Layout)

/-- A word that is written leads to its function. -/
theorem decode_word (k : Hook) :
    decodeArmBranch k.site.toNat (L.word k).toNat = some ((L.target k).toNat : ℤ) := by
  have hsite : 4 ∣ k.site.toNat := by
    rcases k with ((_ | _ | _ | _ | _ | _) | _ | _) | _ | _ | _ <;> decide
  obtain ⟨hbranch, hcall⟩ := decode_makeArm hsite (L.aligned k) (L.near k).1 (L.near k).2
  cases k with
  | entry e => exact hbranch
  | discoveryCall => exact hcall
  | ioctlCall => exact hcall
  | closeCall => exact hcall

/-- The words of the module that are replaced. -/
def cells : Cells Hook U32 U32 where
  site := Hook.site
  old := Hook.original
  new := L.word
  site_injective := Hook.site_injective
  old_ne_new k h := L.outside k (h ▸ L.decode_word k)

end Layout

namespace Plugin

variable {L : Layout} {takes : Takes} {s s' : Plugin} {e : Entry} {k : Hook}

/-- The entries of each installer. -/
def groups : List (List Entry) :=
  [[.ioctl .getdevicechange], [.ioctl .getdevparams],
    [attach, suspend], [.ioctl .cancelEndpoint], [.controlTransfer],
    [.interruptTransfer]]

/-- Different installers are about different entries. -/
theorem groups_disjoint : ∀ g ∈ groups, ∀ g' ∈ groups, g' = g ∨ ∀ e ∈ g', e ∉ g := by decide

/-- Every entry of the group has been taken over. -/
def Done (g : List Entry) (s : Plugin) : Prop := ∀ e ∈ g, s.patchResult e = patchApplied

/-- The entry still holds its original word. -/
def Original (s : Plugin) (e : Entry) : Prop := s.words e.site = Hook.original (.entry e)

/-- The entry leads into the plugin. -/
def Hooked (L : Layout) (s : Plugin) (k : Hook) : Prop := s.words k.site = L.word k

instance : Decidable (s.Hooked L k) := inferInstanceAs (Decidable (_ = _))

/-- An entry of the group that is not done is not what it was. -/
def Blocked (g : List Entry) (s : Plugin) : Prop := ¬ Done g s ∧ ∃ e ∈ g, ¬ s.Original e

/-- Words are only replaced, and neither the permissions nor the variables of the
handlers change. -/
structure Moves (L : Layout) (s s' : Plugin) : Prop where
  words : Replaced L.cells s.words s'.words
  permissions : s'.permissions = s.permissions
  portal : s'.portal = s.portal

/-- Nothing has moved. -/
theorem Moves.refl (s : Plugin) : Moves L s s := ⟨.refl _ _, rfl, rfl⟩

/-- Two moves are one. -/
theorem Moves.trans {s'' : Plugin} (h : Moves L s s') (h' : Moves L s' s'') : Moves L s s'' :=
  ⟨h.words.trans h'.words, h'.permissions.trans h.permissions, h'.portal.trans h.portal⟩

/-- What a patch of a group of entries can do. -/
structure Patches (L : Layout) (takes : Takes) (g : List Entry) (s : Plugin) (out : Int × Plugin) :
    Prop where
  moves : Moves L s out.2
  results : ∀ e ∉ g, out.2.patchResult e = s.patchResult e
  frame : ∀ a, (∀ e ∈ g, a ≠ e.site) → out.2.words a = s.words a
  done : 0 ≤ out.1 ↔ Done g out.2
  sound : ∀ e ∈ g, out.2.patchResult e = patchApplied →
    s.patchResult e = patchApplied ∨ s.Original e ∧ out.2.Hooked L (.entry e)
  refused : (∃ e ∈ g, ¬ s.Original e) → out.1 < 0 ∧ out.2.words = s.words
  ready : (∀ e ∈ g, s.Original e ∧ takes e.site (L.word (.entry e))) → 0 ≤ out.1
  whole : (∀ e ∈ g, s.Original e ∧ out.2.Hooked L (.entry e)) → 0 ≤ out.1

/-! ### One entry -/

/-- Replacing a word that is what it should be. -/
theorem replace_moves (L : Layout) (takes : Takes) (h : s.words k.site = k.original) :
    Moves L s (s.replace L takes k) := by
  unfold replace dcWrite32
  split_ifs
  · exact ⟨Replaced.update (c := L.cells) h, rfl, rfl⟩
  · exact .refl s

/-- Replacing a word leaves the others. -/
theorem replace_other (a : U32) (ha : a ≠ k.site) : (s.replace L takes k).words a = s.words a := by
  unfold replace dcWrite32
  split_ifs
  · exact Function.update_of_ne ha ..
  · rfl

/-- Replacing a word leaves the results. -/
theorem replace_results (takes : Takes) (k : Hook) :
    (s.replace L takes k).patchResult = s.patchResult := by
  unfold replace dcWrite32
  split_ifs <;> rfl

/-- The word holds the branch after the store if the store takes. -/
theorem replace_hooked (L : Layout) (takes : Takes) (h : s.words k.site = k.original) :
    (s.replace L takes k).Hooked L k ↔ takes k.site (L.word k) = true := by
  unfold Hooked replace dcWrite32
  split_ifs with htakes
  · exact iff_of_true (Function.update_self ..) htakes
  · exact iff_of_false (h.trans_ne (L.cells.old_ne_new k)) htakes

/-- Different entries are at different places. -/
theorem site_ne {e e' : Entry} (h : e ≠ e') : e.site ≠ e'.site := fun hsite =>
  h (Hook.entry.inj
    (Hook.site_injective (show (Hook.entry e).site = (Hook.entry e').site from hsite)))

/-- The result that is set is there. -/
theorem setResult_self (s : Plugin) (e : Entry) (r : U8) : (s.setResult e r).patchResult e = r :=
  Function.update_self ..

/-- Setting a result leaves the others. -/
theorem setResult_other {e' : Entry} (h : e' ≠ e) (r : U8) :
    (s.setResult e r).patchResult e' = s.patchResult e' := Function.update_of_ne h ..

/-- An entry with its original word does not lead into the plugin. -/
theorem original_ne_hooked (h : s.Original e) : ¬ s.Hooked L (.entry e) :=
  h.trans_ne (L.cells.old_ne_new (.entry e))

/-- Setting a result moves no word. -/
theorem setResult_moves (h : Moves L s s') (r : U8) : Moves L s (s'.setResult e r) :=
  ⟨h.words, h.permissions, h.portal⟩

/-- A group of one entry is done when that entry is. -/
theorem done_singleton : Done [e] s ↔ s.patchResult e = patchApplied := by
  simp only [Done, List.mem_singleton, forall_eq]

/-- A patch of one entry. -/
theorem patchEntry_patches (s : Plugin) (e : Entry) :
    Patches L takes [e] s (s.patchEntry L takes e) := by
  have hone {out : Int × Plugin} {s' : Plugin} {r : U8} (hs' : Moves L s s')
      (hresults : s'.patchResult = s.patchResult) (hframe : ∀ a ≠ e.site, s'.words a = s.words a)
      (hout : out = (if r = patchApplied then 0 else -1, s'.setResult e r))
      (happlied : r = patchApplied ↔ s.Original e ∧ s'.Hooked L (.entry e))
      (hready : s.Original e → takes e.site (L.word (.entry e)) → s'.Hooked L (.entry e))
      (hrefused : ¬ s.Original e → s'.words = s.words) : Patches L takes [e] s out := by
    subst hout
    have hsuccess : 0 ≤ (if r = patchApplied then 0 else -1 : Int) ↔ r = patchApplied := by
      split_ifs with h <;> simp [h]
    refine ⟨setResult_moves hs' r, fun e' he' => ?_,
      fun a ha => hframe a (ha e (List.mem_singleton_self e)), ?_, fun e' he' h => Or.inr ?_, ?_,
      ?_, ?_⟩
    · have hne : e' ≠ e := fun h => he' (List.mem_singleton.mpr h)
      exact (setResult_other hne r).trans (congrFun hresults e')
    · rw [done_singleton, setResult_self]
      exact hsuccess
    · obtain rfl := List.mem_singleton.mp he'
      rw [setResult_self] at h
      exact happlied.mp h
    · rintro ⟨e', he', h⟩
      obtain rfl := List.mem_singleton.mp he'
      exact ⟨not_le.mp fun hle => h (happlied.mp (hsuccess.mp hle)).1, hrefused h⟩
    · intro h
      obtain ⟨horiginal, htakes⟩ := h e (List.mem_singleton_self e)
      exact hsuccess.mpr (happlied.mpr ⟨horiginal, hready horiginal htakes⟩)
    · intro h
      exact hsuccess.mpr (happlied.mpr (h e (List.mem_singleton_self e)))
  unfold patchEntry
  dsimp only
  split
  · next hmismatch =>
    exact hone (r := patchPreimageMismatch) (.refl s) rfl (fun _ _ => rfl) rfl
      ⟨nofun, fun h => absurd h.1 hmismatch⟩ (fun h => absurd h hmismatch) fun _ => rfl
  · next horiginal =>
    have horiginal : s.Original e := not_not.mp horiginal
    have hmoves := replace_moves L takes (k := .entry e) horiginal
    have hframe (a : U32) (ha : a ≠ e.site) :
        (s.replace L takes (.entry e)).words a = s.words a := replace_other a ha
    have hresults := replace_results (L := L) (s := s) takes (.entry e)
    have hready : s.Original e → takes e.site (L.word (.entry e)) = true →
        (s.replace L takes (.entry e)).Hooked L (.entry e) := fun _ =>
      (replace_hooked L takes (k := .entry e) horiginal).mpr
    split
    · next hfailed =>
      exact hone (r := patchPostimageMismatch) hmoves hresults hframe rfl
        ⟨nofun, fun h => absurd h.2 hfailed⟩ hready fun h => absurd horiginal h
    · next hhooked =>
      exact hone (r := patchApplied) hmoves hresults hframe rfl
        ⟨fun _ => ⟨horiginal, not_not.mp hhooked⟩, fun _ => rfl⟩ hready
        fun h => absurd horiginal h

/-! ### The lifecycle handlers -/

/-- A property of both lifecycle entries. -/
theorem mem_lifecycle {P : Entry → Prop} :
    (∀ e ∈ [attach, suspend], P e) ↔ P attach ∧ P suspend := by
  simp only [List.mem_cons, List.not_mem_nil, or_false, forall_eq_or_imp, forall_eq]

/-- Both words of the lifecycle handlers written. -/
theorem replace_both (hattach : s.Original attach) (hsuspend : s.Original suspend) (s' : Plugin)
    (hs' : s' = (s.replace L takes (.entry attach)).replace L takes (.entry suspend)) :
    Moves L s s' ∧ s'.patchResult = s.patchResult ∧
      (∀ a, (∀ e ∈ [attach, suspend], a ≠ e.site) → s'.words a = s.words a) ∧
        (s'.Hooked L (.entry attach) ↔ takes attach.site (L.word (.entry attach)) = true) ∧
          (s'.Hooked L (.entry suspend) ↔ takes suspend.site (L.word (.entry suspend)) = true) := by
  subst hs'
  have hsites : attach.site ≠ suspend.site := by decide
  have hkept : (s.replace L takes (.entry attach)).words suspend.site = s.words suspend.site :=
    replace_other _ hsites.symm
  refine ⟨(replace_moves L takes (k := .entry attach) hattach).trans
    (replace_moves L takes (k := .entry suspend) (hkept.trans hsuspend)),
    (replace_results takes _).trans (replace_results takes _), fun a ha => ?_, ?_, ?_⟩
  · obtain ⟨hattach, hsuspend⟩ := mem_lifecycle.mp ha
    exact (replace_other (k := .entry suspend) a hsuspend).trans
      (replace_other (k := .entry attach) a hattach)
  · refine Iff.trans ?_ (replace_hooked L takes (k := .entry attach) hattach)
    unfold Hooked
    rw [replace_other (k := .entry suspend) (Hook.entry attach).site hsites]
  · exact replace_hooked L takes (k := .entry suspend) (hkept.trans hsuspend)

/-- A patch of the lifecycle handlers. -/
theorem patchLifecycle_patches (s : Plugin) :
    Patches L takes [attach, suspend] s (s.patchLifecycle L takes) := by
  have hne : suspend ≠ attach := by decide
  have hother {s' : Plugin} {e e' : Entry} (he : e ∈ [attach, suspend])
      (he' : e' ∉ [attach, suspend]) (r : U8) :
      (s'.setResult e r).patchResult e' = s'.patchResult e' :=
    setResult_other (fun h => he' (by rwa [h])) r
  have hattachmem : attach ∈ [attach, suspend] := List.mem_cons_self
  have hsuspendmem : suspend ∈ [attach, suspend] := List.mem_cons_of_mem _ List.mem_cons_self
  have hnot : ¬ (0 : Int) ≤ -1 := by decide
  -- one of the two words is not what it was
  have hmismatch {e : Entry} (he : e ∈ [attach, suspend]) (h : ¬ s.Original e) :
      Patches L takes [attach, suspend] s (-1, s.setResult e patchPreimageMismatch) := by
    have hresult : ¬ Done [attach, suspend] (s.setResult e patchPreimageMismatch) := fun hdone =>
      absurd ((setResult_self s e _).symm.trans (hdone e he)) (by decide)
    refine ⟨setResult_moves (.refl s) _, fun e' he' => hother he he' _, fun _ _ => rfl,
      iff_of_false hnot hresult, fun e' he' happlied => Or.inl ?_, fun _ => ⟨by omega, rfl⟩,
      fun hall => absurd (hall e he).1 h, fun hall => absurd (hall e he).1 h⟩
    by_cases hee : e' = e
    · subst hee
      exact absurd ((setResult_self s e' _).symm.trans happlied) (by decide)
    · exact (setResult_other hee _).symm.trans happlied
  unfold patchLifecycle
  dsimp only
  split
  · next h => exact hmismatch hattachmem h
  split
  · next h => exact hmismatch hsuspendmem h
  next hattach hsuspend =>
  have hattach : s.Original attach := not_not.mp hattach
  have hsuspend : s.Original suspend := not_not.mp hsuspend
  have horiginal : ∀ e ∈ [attach, suspend], s.Original e := mem_lifecycle.mpr ⟨hattach, hsuspend⟩
  have hrefused {p : Prop} (h : ∃ e ∈ [attach, suspend], ¬ s.Original e) : p := by
    obtain ⟨e, he, hne⟩ := h
    exact absurd (horiginal e he) hne
  generalize hs' : (s.replace L takes (.entry attach)).replace L takes (.entry suspend) = s'
  obtain ⟨hmoves, hresults, hframe, hattached, hsuspended⟩ :=
    replace_both hattach hsuspend s' hs'.symm
  split
  · next hfailed =>
    have hfailed : ¬ s'.Hooked L (.entry attach) := hfailed
    refine ⟨setResult_moves hmoves _,
      fun e he => (hother hattachmem he _).trans (congrFun hresults e), hframe,
      iff_of_false hnot fun hdone => ?_, mem_lifecycle.mpr ⟨fun h => ?_, fun h => Or.inl ?_⟩,
      hrefused, fun hall => ?_, fun hall => ?_⟩
    · exact absurd ((setResult_self s' attach _).symm.trans (hdone attach hattachmem)) (by decide)
    · exact absurd ((setResult_self s' attach _).symm.trans h) (by decide)
    · rwa [setResult_other hne, hresults] at h
    · exact absurd (hattached.mpr (hall attach hattachmem).2) hfailed
    · exact absurd (hall attach hattachmem).2 hfailed
  · next hdone =>
    have hdone : s'.Hooked L (.entry attach) := not_not.mp hdone
    split
    · next hfailed =>
      have hfailed : ¬ s'.Hooked L (.entry suspend) := hfailed
      refine ⟨setResult_moves (setResult_moves hmoves _) _, fun e he => ?_, hframe,
        iff_of_false hnot fun hboth => ?_,
        mem_lifecycle.mpr ⟨fun _ => Or.inr ⟨hattach, hdone⟩, fun h => ?_⟩, hrefused, fun hall => ?_,
        fun hall => ?_⟩
      · rw [hother hsuspendmem he, hother hattachmem he, hresults]
      · exact absurd ((setResult_self (s'.setResult attach patchApplied) suspend _).symm.trans
          (hboth suspend hsuspendmem)) (by decide)
      · exact absurd ((setResult_self (s'.setResult attach patchApplied) suspend _).symm.trans h)
          (by decide)
      · exact absurd (hsuspended.mpr (hall suspend hsuspendmem).2) hfailed
      · exact absurd (hall suspend hsuspendmem).2 hfailed
    · next hboth =>
      have hboth : s'.Hooked L (.entry suspend) := not_not.mp hboth
      refine ⟨setResult_moves (setResult_moves hmoves _) _, fun e he => ?_, hframe,
        iff_of_true le_rfl (mem_lifecycle.mpr ⟨?_, setResult_self ..⟩),
        mem_lifecycle.mpr ⟨fun _ => Or.inr ⟨hattach, hdone⟩, fun _ => Or.inr ⟨hsuspend, hboth⟩⟩,
        hrefused,
        fun _ => le_rfl, fun _ => le_rfl⟩
      · rw [hother hsuspendmem he, hother hattachmem he, hresults]
      · rw [setResult_other hne.symm, setResult_self]

/-! ### The installers -/

/-- What an installer can do. -/
structure Installs (L : Layout) (takes : Takes) (g : List Entry) (s : Plugin) (out : Int × Plugin) :
    Prop where
  moves : Moves L s out.2
  results : ∀ e ∉ g, out.2.patchResult e = s.patchResult e
  frame : ∀ a, (∀ e ∈ g, a ≠ e.site) → out.2.words a = s.words a
  done : 0 ≤ out.1 ↔ Done g out.2
  sound : ∀ e ∈ g, out.2.patchResult e = patchApplied →
    s.patchResult e = patchApplied ∨ s.Original e ∧ out.2.Hooked L (.entry e)
  skip : Done g s → out.2 = s
  refused : Blocked g s → out.1 < 0 ∧ out.2.words = s.words
  ready : (Done g s ∨ ∀ e ∈ g, s.Original e ∧ takes e.site (L.word (.entry e))) → 0 ≤ out.1
  whole : (∀ e ∈ g, s.Original e ∧ out.2.Hooked L (.entry e)) → 0 ≤ out.1

/-- A patch with the permissions opened around it. -/
theorem Patches.withAccess {g : List Entry} {f : Plugin → Int × Plugin}
    (h : ∀ s, Patches L takes g s (f s)) (s : Plugin) : Patches L takes g s (s.withAccess f) := by
  have hf := h { s with permissions := 0xffffffff }
  exact ⟨⟨hf.moves.words, rfl, hf.moves.portal⟩, hf.results, hf.frame, hf.done, hf.sound,
    hf.refused, hf.ready,
    hf.whole⟩

/-- An installer skips its patch when the group is done. -/
theorem installs_of_patches {g : List Entry} {out : Int × Plugin} {p : Prop} [Decidable p]
    (hp : p ↔ Done g s) (h : Patches L takes g s out) :
    Installs L takes g s (if p then (0, s) else out) := by
  split_ifs with hdone
  · exact ⟨.refl s, fun _ _ => rfl, fun _ _ => rfl, iff_of_true le_rfl (hp.mp hdone),
      fun _ _ => Or.inl,
      fun _ => rfl, fun hblocked => absurd (hp.mp hdone) hblocked.1, fun _ => le_rfl,
      fun _ => le_rfl⟩
  · have hnot : ¬ Done g s := fun h => hdone (hp.mpr h)
    exact ⟨h.moves, h.results, h.frame, h.done, h.sound, fun h => absurd h hnot,
      fun hb => h.refused hb.2,
      fun hr => h.ready (hr.resolve_left hnot), h.whole⟩

/-- Each installer takes care of its group. -/
theorem installers_installs (L : Layout) (takes : Takes) :
    List.Forall₂ (fun f g => ∀ s, Installs L takes g s (f s)) (installers L takes) groups := by
  have hone (e : Entry) (s : Plugin) : Installs L takes [e] s
      (if s.patchResult e = patchApplied then (0, s)
        else s.withAccess fun s => s.patchEntry L takes e) :=
    installs_of_patches done_singleton.symm (.withAccess (fun s => patchEntry_patches s e) s)
  have htwo (s : Plugin) : Installs L takes [attach, suspend] s
      (s.installLifecyclePatches L takes) :=
    installs_of_patches (mem_lifecycle (P := fun e => s.patchResult e = patchApplied)).symm
      (.withAccess patchLifecycle_patches s)
  exact .cons (hone _) (.cons (hone _) (.cons htwo (.cons (hone _) (.cons (hone _)
    (.cons (hone _) .nil)))))

/-- What each installer keeps, a row of them keeps. -/
theorem installUntil_keeps {P : Plugin → Prop} {fs : List (Plugin → Int × Plugin)}
    (h : ∀ f ∈ fs, ∀ s, P s → P (f s).2) (hs : P s) : P (installUntil fs s).2 := by
  induction fs generalizing s with
  | nil => exact hs
  | cons f fs ih =>
      have hf := h f List.mem_cons_self s hs
      unfold installUntil
      split
      · exact hf
      · exact ih (fun f' hf' => h f' (List.mem_cons_of_mem f hf')) hf

/-- What every installer keeps is kept by all of them. -/
theorem installAll_keeps {P : Plugin → Prop} {fs : List (Plugin → Int × Plugin)}
    (h : ∀ f ∈ fs, ∀ s, P s → P (f s).2) (hs : P s) : P (installAll fs s) := by
  induction fs generalizing s with
  | nil => exact hs
  | cons f fs ih =>
      exact ih (fun f' hf' => h f' (List.mem_cons_of_mem f hf')) (h f List.mem_cons_self s hs)

/-- Each installer has a group. -/
theorem installer_group {f : Plugin → Int × Plugin} (hf : f ∈ installers L takes) :
    ∃ g ∈ groups, ∀ s, Installs L takes g s (f s) := by
  have hall := installers_installs L takes
  generalize installers L takes = fs at hf hall
  generalize groups = gs at hall ⊢
  induction hall with
  | nil => exact absurd hf List.not_mem_nil
  | cons hhead _ ih =>
      rcases List.mem_cons.mp hf with rfl | hf
      · exact ⟨_, List.mem_cons_self, hhead⟩
      · obtain ⟨g, hg, h⟩ := ih hf
        exact ⟨g, List.mem_cons_of_mem _ hg, h⟩

/-- An installer leaves the entries of the others. -/
theorem Installs.word {g : List Entry} {out : Int × Plugin} (h : Installs L takes g s out)
    (e : Entry) (he : e ∉ g) : out.2.words e.site = s.words e.site :=
  h.frame _ fun _ he' => site_ne fun heq => he (heq ▸ he')

/-- A group that is done stays done. -/
theorem Installs.keeps_done {g g' : List Entry} {out : Int × Plugin} (h : Installs L takes g s out)
    (hg : g ∈ groups) (hg' : g' ∈ groups) (hdone : Done g' s) : Done g' out.2 := by
  rcases groups_disjoint g hg g' hg' with rfl | hdisjoint
  · rwa [h.skip hdone]
  · exact fun e he => (h.results e (hdisjoint e he)).trans (hdone e he)

/-- A group that is blocked stays blocked. -/
theorem Installs.keeps_blocked {g g' : List Entry} {out : Int × Plugin}
    (h : Installs L takes g s out) (hg : g ∈ groups) (hg' : g' ∈ groups) (hb : Blocked g' s) :
    Blocked g' out.2 := by
  obtain ⟨e, he, horiginal⟩ := hb.2
  have hword : ¬ out.2.Original e := fun h' => horiginal
    ((h.moves.words.stays (c := L.cells) (k := .entry e) horiginal).symm.trans h')
  rcases groups_disjoint g hg g' hg' with rfl | hdisjoint
  · exact ⟨fun hdone => absurd (h.done.mpr hdone) (not_le.mpr (h.refused hb).1), e, he, hword⟩
  · refine ⟨fun hdone => hb.1 fun e he => ?_, e, he, hword⟩
    exact (h.results e (hdisjoint e he)).symm.trans (hdone e he)

/-- A group that is not blocked stays so while others are installed. -/
theorem Installs.keeps_free {g g' : List Entry} {out : Int × Plugin} (h : Installs L takes g s out)
    (hg : g ∈ groups) (hg' : g' ∈ groups) (hne : g' ≠ g) (hfree : ¬ Blocked g' s) :
    ¬ Blocked g' out.2 := by
  have hdisjoint := (groups_disjoint g hg g' hg').resolve_left hne
  rintro ⟨hdone, e, he, horiginal⟩
  refine hfree ⟨fun h' => hdone fun e he => ?_, e, he, fun h' => horiginal ?_⟩
  · exact (h.results e (hdisjoint e he)).trans (h' e he)
  · exact (h.word e (hdisjoint e he)).trans h'

end Plugin
end VirtualPortal
