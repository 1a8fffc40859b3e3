/-
# The plugin from its start

What holds in every run of the plugin, whatever stores take, and whatever the module's
words were.

`module_kept`: a word of the module is only ever replaced by the branch that belongs
there, and only if it was what it should be; the permissions are as they were; and an
entry that counts as taken over leads into the plugin.

`announced_once`: the portal is announced once, and, if the host asks through the
discovery call that the plugin has taken over, only when all seven entries lead into it.

`refused_forever_iff`: once the discovery call leads into the plugin, every discovery is
refused, now and later, exactly if some entry was not what it should be from the start
or just one of the two lifecycle entries has been taken over.  In all other cases the
next discovery whose stores take is answered.
-/

import VirtualPortal.Hidv5.Installed
import Mathlib.Data.List.Count

namespace VirtualPortal
namespace Plugin

variable {L : Layout} {takes : Takes} {s s' : Plugin} {e : Entry} {k : Hook} {w : U32 → U32}

/-- Every entry of every installer has been taken over. -/
def Complete (s : Plugin) : Prop := ∀ g ∈ groups, Done g s

/-- Some installer never succeeds again. -/
def Stuck (s : Plugin) : Prop := ∃ g ∈ groups, Blocked g s

/-! ### The installers in a row -/

/-- An installer keeps all entries applied. -/
theorem complete_of_install {f : Plugin → Int × Plugin} (hf : f ∈ installers L takes)
    (h : s.Complete) : (f s).2.Complete := by
  obtain ⟨g, hg, hinstalls⟩ := installer_group hf
  exact fun g' hg' => (hinstalls s).keeps_done hg hg' (h g' hg')

/-- An installer keeps an entry that is refused. -/
theorem stuck_of_install {f : Plugin → Int × Plugin} (hf : f ∈ installers L takes)
    (h : s.Stuck) : (f s).2.Stuck := by
  obtain ⟨g, hg, hinstalls⟩ := installer_group hf
  obtain ⟨g', hg', hblocked⟩ := h
  exact ⟨g', hg', (hinstalls s).keeps_blocked hg hg' hblocked⟩

/-- If all installers in a row succeed, all their groups are done. -/
theorem installUntil_done {fs : List (Plugin → Int × Plugin)} {gs : List (List Entry)}
    (h : List.Forall₂ (fun f g => ∀ s, Installs L takes g s (f s)) fs gs)
    (hgs : ∀ g ∈ gs, g ∈ groups) (hfs : ∀ f ∈ fs, f ∈ installers L takes)
    (htrue : (installUntil fs s).1 = true) : ∀ g ∈ gs, Done g (installUntil fs s).2 := by
  induction h generalizing s with
  | nil => exact fun g hg => absurd hg List.not_mem_nil
  | @cons f g fs gs hf _ ih =>
      have hgs' : ∀ g' ∈ gs, g' ∈ groups := fun g' hg' => hgs g' (List.mem_cons_of_mem g hg')
      have hfs' : ∀ f' ∈ fs, f' ∈ installers L takes := fun f' hf' =>
        hfs f' (List.mem_cons_of_mem f hf')
      unfold installUntil at htrue ⊢
      split at htrue
      · cases htrue
      next hsuccess =>
      rw [if_neg hsuccess]
      intro g' hg'
      rcases List.mem_cons.mp hg' with rfl | hg'
      · refine installUntil_keeps (P := Done g') (fun f' hf' s' hs' => ?_)
          ((hf s).done.mp (not_lt.mp hsuccess))
        obtain ⟨g'', hg'', hinstalls⟩ := installer_group (hfs' f' hf')
        exact (hinstalls s').keeps_done hg'' (hgs g' List.mem_cons_self) hs'
      · exact ih hgs' hfs' htrue g' hg'

/-- A row with a blocked group fails. -/
theorem installUntil_blocked {fs : List (Plugin → Int × Plugin)} {gs : List (List Entry)}
    (h : List.Forall₂ (fun f g => ∀ s, Installs L takes g s (f s)) fs gs)
    (hgs : ∀ g ∈ gs, g ∈ groups) (hblocked : ∃ g ∈ gs, Blocked g s) :
    (installUntil fs s).1 = false := by
  induction h generalizing s with
  | nil =>
      obtain ⟨g, hg, -⟩ := hblocked
      exact absurd hg List.not_mem_nil
  | @cons f g fs gs hf _ ih =>
      unfold installUntil
      split
      · rfl
      next hsuccess =>
      obtain ⟨g', hg', hb⟩ := hblocked
      rcases List.mem_cons.mp hg' with rfl | hmem
      · exact absurd ((hf s).refused hb).1 hsuccess
      · exact ih (fun g' hg' => hgs g' (List.mem_cons_of_mem g hg')) ⟨g', hmem,
          (hf s).keeps_blocked (hgs g List.mem_cons_self) (hgs g' hg') hb⟩

/-- A row without a blocked group succeeds if the stores take. -/
theorem installUntil_free {fs : List (Plugin → Int × Plugin)} {gs : List (List Entry)}
    (h : List.Forall₂ (fun f g => ∀ s, Installs L (fun _ _ => true) g s (f s)) fs gs)
    (hgs : ∀ g ∈ gs, g ∈ groups) (hnodup : gs.Nodup) (hfree : ∀ g ∈ gs, ¬ Blocked g s) :
    (installUntil fs s).1 = true := by
  induction h generalizing s with
  | nil => rfl
  | @cons f g fs gs hf _ ih =>
      obtain ⟨hnot, hnodup⟩ := List.nodup_cons.mp hnodup
      have hready : 0 ≤ (f s).1 := by
        refine (hf s).ready ?_
        by_cases hdone : Done g s
        · exact Or.inl hdone
        · refine Or.inr fun e he => ⟨?_, rfl⟩
          by_contra horiginal
          exact hfree g List.mem_cons_self ⟨hdone, e, he, horiginal⟩
      unfold installUntil
      rw [if_neg (not_lt.mpr hready)]
      refine ih (fun g' hg' => hgs g' (List.mem_cons_of_mem g hg')) hnodup fun g' hg' => ?_
      have hne : g' ≠ g := fun h => hnot (h ▸ hg')
      exact (hf s).keeps_free (hgs g List.mem_cons_self) (hgs g' (List.mem_cons_of_mem g hg')) hne
        (hfree g' (List.mem_cons_of_mem g hg'))

/-- The installers of a discovery all succeed exactly if all entries are taken over
afterwards; a stuck plugin fails, and another one succeeds if the stores take. -/
theorem install_complete (L : Layout) (takes : Takes) (s : Plugin) :
    ((installUntil (installers L takes) s).1 = true →
        (installUntil (installers L takes) s).2.Complete) ∧
      (s.Stuck → (installUntil (installers L takes) s).1 = false) ∧
        (¬ s.Stuck → (installUntil (installers L fun _ _ => true) s).1 = true) :=
  ⟨installUntil_done (installers_installs L takes) (fun _ h => h) (fun _ h => h),
    installUntil_blocked (installers_installs L takes) (fun _ h => h),
    fun h => installUntil_free (installers_installs L _) (fun _ h => h) (by decide)
      fun g hg hb => h ⟨g, hg, hb⟩⟩

/-! ### One event -/

/-- What any event does to the module and to the results. -/
structure Progress (L : Layout) (s s' : Plugin) : Prop where
  words : Replaced L.cells s.words s'.words
  permissions : s'.permissions = s.permissions
  results : ∀ e, s'.patchResult e = patchApplied →
    s.patchResult e = patchApplied ∨ s.Original e ∧ s'.Hooked L (.entry e)

/-- No progress is progress. -/
theorem Progress.refl (s : Plugin) : Progress L s s := ⟨.refl _ _, rfl, fun _ => Or.inl⟩

/-- Two pieces of progress are one. -/
theorem Progress.trans {s'' : Plugin} (h : Progress L s s') (h' : Progress L s' s'') :
    Progress L s s'' := by
  refine ⟨h.words.trans h'.words, h'.permissions.trans h.permissions, fun e he => ?_⟩
  rcases h'.results e he with he' | ⟨horiginal, hhooked⟩
  · rcases h.results e he' with he'' | ⟨horiginal, hhooked⟩
    · exact Or.inl he''
    · exact Or.inr ⟨horiginal, h'.words.keeps (c := L.cells) (k := .entry e) hhooked⟩
  · exact Or.inr ⟨h.words.was_old (c := L.cells) (k := .entry e) horiginal, hhooked⟩

/-- An installer makes progress. -/
theorem Progress.installer {f : Plugin → Int × Plugin} (hf : f ∈ installers L takes)
    (s : Plugin) : Progress L s (f s).2 := by
  obtain ⟨g, hg, hinstalls⟩ := installer_group hf
  have h := hinstalls s
  refine ⟨h.moves.words, h.moves.permissions, fun e he => ?_⟩
  by_cases hmem : e ∈ g
  · exact h.sound e hmem he
  · exact Or.inl ((h.results e hmem).symm.trans he)

/-! ### The patchers -/

/-- A store of a word changes that word if it takes, and no other. -/
theorem dcWrite32_words (a w b : U32) :
    (s.dcWrite32 takes a w).words b = if b = a ∧ takes a w then w else s.words b := by
  unfold dcWrite32
  split_ifs with htakes hb hb
  · rw [hb.1]
    exact Function.update_self ..
  · exact Function.update_of_ne (fun h => hb ⟨h, htakes⟩) ..
  · exact absurd hb.2 htakes
  · rfl

/-- The calls that `patch_v4_dispatch` replaces. -/
theorem v4_sites : Hook.site .ioctlCall ≠ Hook.site .closeCall := by decide

/-- `patch_v4_dispatch`: the branches taken, with the words they leave. -/
theorem patchV4Dispatch_cases (L : Layout) (takes : Takes) (s : Plugin) :
    (¬ (s.words (Hook.site .ioctlCall) = Hook.original .ioctlCall ∧
          s.words (Hook.site .closeCall) = Hook.original .closeCall) ∧
        s.patchV4Dispatch L takes = (-1, s)) ∨
      (s.words (Hook.site .ioctlCall) = Hook.original .ioctlCall ∧
          s.words (Hook.site .closeCall) = Hook.original .closeCall) ∧
        ∃ s', s' = (s.replace L takes .ioctlCall).replace L takes .closeCall ∧
          ((s'.Hooked L .ioctlCall ∧ s'.Hooked L .closeCall) ∧
              s.patchV4Dispatch L takes = (0, s') ∨
            ¬ (s'.Hooked L .ioctlCall ∧ s'.Hooked L .closeCall) ∧
              s.patchV4Dispatch L takes =
                (-1, (s'.dcWrite32 takes (Hook.site .ioctlCall)
                  (Hook.original .ioctlCall)).dcWrite32 takes (Hook.site .closeCall)
                    (Hook.original .closeCall))) := by
  unfold patchV4Dispatch
  by_cases horiginal : s.words (Hook.site .ioctlCall) = Hook.original .ioctlCall ∧
      s.words (Hook.site .closeCall) = Hook.original .closeCall
  · have hguard : ¬ (s.words (Hook.site .ioctlCall) ≠ Hook.original .ioctlCall ∨
        s.words (Hook.site .closeCall) ≠ Hook.original .closeCall) := by
      rintro (h | h)
      · exact h horiginal.1
      · exact h horiginal.2
    rw [if_neg hguard]
    refine Or.inr ⟨horiginal, _, rfl, ?_⟩
    by_cases hboth :
      ((s.replace L takes .ioctlCall).replace L takes .closeCall).Hooked L .ioctlCall ∧
        ((s.replace L takes .ioctlCall).replace L takes .closeCall).Hooked L .closeCall
    · exact Or.inl ⟨hboth, if_pos hboth⟩
    · exact Or.inr ⟨hboth, if_neg hboth⟩
  · refine Or.inl ⟨horiginal, if_pos ?_⟩
    by_cases h : s.words (Hook.site .ioctlCall) = Hook.original .ioctlCall
    · exact Or.inr fun h' => horiginal ⟨h, h'⟩
    · exact Or.inl h

/-- A store of a word leaves results, permissions and the portal. -/
theorem dcWrite32_results (takes : Takes) (s : Plugin) (a w : U32) :
    (s.dcWrite32 takes a w).patchResult = s.patchResult ∧
    (s.dcWrite32 takes a w).permissions = s.permissions ∧
      (s.dcWrite32 takes a w).portal = s.portal := by
  unfold dcWrite32
  split_ifs <;> exact ⟨rfl, rfl, rfl⟩

/-- A patcher leaves the entries of the installers, the results, the permissions and the
variables of the handlers. -/
structure Patched (L : Layout) (s s' : Plugin) : Prop where
  words : Replaced L.cells s.words s'.words
  entries : ∀ g ∈ groups, ∀ e ∈ g, s'.words e.site = s.words e.site
  results : s'.patchResult = s.patchResult
  permissions : s'.permissions = s.permissions
  portal : s'.portal = s.portal

/-- Nothing is patched. -/
theorem Patched.refl (s : Plugin) : Patched L s s :=
  ⟨.refl _ _, fun _ _ _ _ => rfl, rfl, rfl, rfl⟩

/-- The word is none of the entries of the installers. -/
def Apart (k : Hook) : Prop := ∀ g ∈ groups, ∀ e ∈ g, Hook.entry e ≠ k

instance : DecidablePred Apart := fun _ => inferInstanceAs (Decidable (∀ _ ∈ _, _))

/-- A hook apart from the groups is at none of their entries. -/
theorem Apart.site_ne (hk : Apart k) {g : List Entry} (hg : g ∈ groups) (he : e ∈ g) :
    e.site ≠ k.site := fun h =>
    hk g hg e he (Hook.site_injective (show (Hook.entry e).site = k.site from h))

/-- Replacing a word apart from the groups patches the module. -/
theorem patched_replace (L : Layout) (takes : Takes) (hk : Apart k)
    (h : s.words k.site = k.original) :
    Patched L s (s.replace L takes k) := by
  obtain ⟨h₁, h₂, h₃⟩ := dcWrite32_results takes s k.site (L.word k)
  exact ⟨(replace_moves L takes h).words, fun g hg e he => replace_other _ (hk.site_ne hg he), h₁,
    h₂, h₃⟩

/-- What is patched apart from the groups is progress. -/
theorem Patched.progress (h : Patched L s s') : Progress L s s' :=
  ⟨h.words, h.permissions, fun e he => Or.inl ((congrFun h.results e).symm.trans he)⟩

/-- `patch_v4_dispatch` patches apart from the groups. -/
theorem patchV4Dispatch_patched (L : Layout) (takes : Takes) (s : Plugin) :
    Patched L s (s.patchV4Dispatch L takes).2 := by
  rcases patchV4Dispatch_cases L takes s with ⟨-, h⟩ | ⟨horiginal, s', hs', hout⟩
  · rw [h]
    exact .refl s
  have hother₁ : Apart .ioctlCall := by decide
  have hother₂ : Apart .closeCall := by decide
  have hfirst := patched_replace L takes hother₁ horiginal.1
  have hclose : (s.replace L takes .ioctlCall).words (Hook.site .closeCall) =
      Hook.original .closeCall := (replace_other _ v4_sites.symm).trans horiginal.2
  have hsecond := patched_replace L takes hother₂ hclose
  rw [← hs'] at hsecond
  have hboth : Patched L s s' := ⟨hfirst.words.trans hsecond.words,
    fun g hg e he => (hsecond.entries g hg e he).trans (hfirst.entries g hg e he),
    hsecond.results.trans hfirst.results, hsecond.permissions.trans hfirst.permissions,
    hsecond.portal.trans hfirst.portal⟩
  rcases hout with ⟨-, h⟩ | ⟨-, h⟩
  · rw [h]
    exact hboth
  rw [h]
  obtain ⟨h₁, h₂, h₃⟩ := dcWrite32_results takes s' (Hook.site .ioctlCall)
    (Hook.original .ioctlCall)
  obtain ⟨h₁', h₂', h₃'⟩ := dcWrite32_results takes (s'.dcWrite32 takes
    (Hook.site .ioctlCall) (Hook.original .ioctlCall)) (Hook.site .closeCall)
    (Hook.original .closeCall)
  refine ⟨fun a => ?_, fun g hg e he => ?_, h₁'.trans (h₁.trans hboth.results),
    h₂'.trans (h₂.trans hboth.permissions), h₃'.trans (h₃.trans hboth.portal)⟩
  · -- a word that is written back is what it was
    rw [dcWrite32_words, dcWrite32_words]
    split_ifs with hc hi
    · exact Or.inl (by rw [hc.1, horiginal.2])
    · exact Or.inl (by rw [hi.1, horiginal.1])
    · exact hboth.words a
  · rw [dcWrite32_words, dcWrite32_words, if_neg fun h => hother₂.site_ne hg he h.1,
      if_neg fun h => hother₁.site_ne hg he h.1]
    exact hboth.entries g hg e he

/-- `patch_hid_discovery_call` patches apart from the groups. -/
theorem patchHidDiscoveryCall_patched (L : Layout) (takes : Takes) (s : Plugin) :
    Patched L s (s.patchHidDiscoveryCall L takes).2 := by
  unfold patchHidDiscoveryCall
  split_ifs with h
  · exact .refl s
  · exact patched_replace L takes (by decide : Apart .discoveryCall) (not_not.mp h)

/-- `patch_getversion_handler` patches apart from the groups. -/
theorem patchGetversionHandler_patched (L : Layout) (takes : Takes) (s : Plugin) :
    Patched L s (s.patchGetversionHandler L takes).2 := by
  unfold patchGetversionHandler
  split_ifs with h
  · exact .refl s
  · exact patched_replace L takes (by decide : Apart (.entry (.ioctl .getversion))) (not_not.mp h)

/-! ### What every event keeps -/

/-- What the installers and the handlers keep, every request keeps. -/
theorem request_keeps {P : Plugin → Prop}
    (hinstall : ∀ f ∈ installers L takes, ∀ s, P s → P (f s).2)
    (hportal : ∀ s portal, P s → P { s with portal := portal }) (hs : P s) (mem : Mem)
    (r : Request) : P (s.request L takes mem r).1 := by
  have hdiscovery (m : Option IpcMessage) : P (s.hidDiscoveryBootstrap L takes mem m).1 := by
    have hrow := installUntil_keeps hinstall hs
    unfold hidDiscoveryBootstrap
    dsimp only
    split_ifs
    · exact hportal _ _ hrow
    · exact hrow
    · exact hrow
  cases r with
  | discovery m =>
      unfold request
      dsimp only
      split_ifs
      · exact hdiscovery m
      · exact hportal s _ hs
      · exact hs
  | ioctl h hne m =>
      unfold request
      dsimp only
      split_ifs
      · unfold getversionHandler
        dsimp only
        split_ifs
        · exact installAll_keeps hinstall hs
        · exact hs
      · exact hportal s _ hs
      · exact hs
  | controlTransfer m =>
      unfold request
      dsimp only
      split_ifs
      · exact hportal s _ hs
      · exact hs
  | interruptTransfer m =>
      unfold request
      dsimp only
      split_ifs
      · exact hportal s _ hs
      · exact hs

/-- What the installers, the patchers and the handlers keep, every event keeps. -/
theorem step_keeps {P : Plugin → Prop} {e : Event × Takes}
    (hinstall : ∀ f ∈ installers L e.2, ∀ s, P s → P (f s).2)
    (hpatch : ∀ s s', Patched L s s' → P s → P s')
    (hportal : ∀ s portal, P s → P { s with portal := portal }) (hs : P s) : P (s.step L e).1 := by
  obtain ⟨event, takes⟩ := e
  cases event with
  | patchV4Dispatch => exact hpatch s _ (patchV4Dispatch_patched L takes s) hs
  | patchHidDiscoveryCall => exact hpatch s _ (patchHidDiscoveryCall_patched L takes s) hs
  | patchGetversionHandler => exact hpatch s _ (patchGetversionHandler_patched L takes s) hs
  | request mem r => exact request_keeps hinstall hportal hs mem r

/-- Every request makes progress. -/
theorem step_progress (s : Plugin) (e : Event × Takes) : Progress L s (s.step L e).1 :=
  step_keeps (P := Progress L s) (fun _ hf s' h => h.trans (.installer hf s'))
    (fun _ _ hpatch h => h.trans hpatch.progress)
    (fun _ _ h => ⟨h.words, h.permissions, h.results⟩) (.refl s)

/-- Every request keeps all entries applied. -/
theorem step_complete {e : Event × Takes} (h : s.Complete) : (s.step L e).1.Complete :=
  step_keeps (fun _ hf _ h => complete_of_install hf h)
    (fun _ _ hpatch h g hg e he => (congrFun hpatch.results e).trans (h g hg e he))
    (fun _ _ h => h) h

/-- Every request keeps an entry that is refused. -/
theorem step_stuck {e : Event × Takes} (h : s.Stuck) : (s.step L e).1.Stuck := by
  refine step_keeps (L := L) (fun _ hf _ h => stuck_of_install hf h) (fun _ _ hpatch h => ?_)
    (fun _ _ h => h) h
  obtain ⟨g, hg, hdone, e, he, horiginal⟩ := h
  refine ⟨g, hg, fun h => hdone fun e he => ?_, e, he, fun h => horiginal ?_⟩
  · exact (congrFun hpatch.results e).symm.trans (h e he)
  · exact (hpatch.words.stays (c := L.cells) (k := .entry e) horiginal).symm.trans h

/-! ### Runs -/

/-- What holds of the plugin in every run. -/
structure Kept (L : Layout) (w : U32 → U32) (s : Plugin) : Prop where
  words : Replaced L.cells w s.words
  results : ∀ e, s.patchResult e = patchApplied →
    w e.site = Hook.original (.entry e) ∧ s.Hooked L (.entry e)
  whole : ∀ g ∈ groups,
    (∀ e ∈ g, w e.site = Hook.original (.entry e) ∧ s.Hooked L (.entry e)) → Done g s

/-- At the start every word is what it was. -/
theorem Kept.start (w : U32 → U32) (p : U32) : Kept L w (start w p) where
  words := .refl _ _
  results e h := absurd h (by decide : patchNotEvaluated ≠ patchApplied)
  whole g hg h := by
    have hne : ∀ g ∈ groups, g ≠ [] := by decide
    obtain ⟨e, g, rfl⟩ := List.exists_cons_of_ne_nil (hne g hg)
    obtain ⟨horiginal, hhooked⟩ := h e List.mem_cons_self
    exact absurd (horiginal.symm.trans hhooked) (L.cells.old_ne_new (.entry e))

/-- Progress keeps the module, and an entry that is applied leads into the plugin. -/
theorem Kept.progress (h : Kept L w s) (hp : Progress L s s') :
    Replaced L.cells w s'.words ∧ ∀ e, s'.patchResult e = patchApplied →
      w e.site = Hook.original (.entry e) ∧ s'.Hooked L (.entry e) := by
  refine ⟨h.words.trans hp.words, fun e he => ?_⟩
  rcases hp.results e he with he | ⟨horiginal, hhooked⟩
  · obtain ⟨horiginal, hhooked⟩ := h.results e he
    exact ⟨horiginal, hp.words.keeps (c := L.cells) (k := .entry e) hhooked⟩
  · exact ⟨h.words.was_old (c := L.cells) (k := .entry e) horiginal, hhooked⟩

/-- An installer keeps the module. -/
theorem Kept.installer {w : U32 → U32} {f : Plugin → Int × Plugin} (hf : f ∈ installers L takes)
    (h : Kept L w s) : Kept L w (f s).2 := by
  obtain ⟨hwords, hresults⟩ := h.progress (.installer hf s)
  refine ⟨hwords, hresults, fun g' hg' hall => ?_⟩
  obtain ⟨g, hg, hinstalls⟩ := installer_group hf
  have hi := hinstalls s
  rcases groups_disjoint g hg g' hg' with rfl | hdisjoint
  · by_cases hdone : Done g' s
    · exact hi.keeps_done hg hg hdone
    by_cases hblocked : ∃ e ∈ g', ¬ s.Original e
    · have hsame := (hi.refused ⟨hdone, hblocked⟩).2
      refine absurd (h.whole g' hg fun e he => ⟨(hall e he).1, ?_⟩) hdone
      exact (congrFun hsame e.site).symm.trans (hall e he).2
    · push Not at hblocked
      exact hi.done.mp (hi.whole fun e he => ⟨hblocked e he, (hall e he).2⟩)
  · have hdone := h.whole g' hg' fun e he =>
      ⟨(hall e he).1, (hi.word e (hdisjoint e he)).symm.trans (hall e he).2⟩
    exact hi.keeps_done hg hg' hdone

/-- A patch apart from the groups keeps the module. -/
theorem Kept.patched (h : Kept L w s) (hp : Patched L s s') : Kept L w s' := by
  obtain ⟨hwords, hresults⟩ := h.progress hp.progress
  refine ⟨hwords, hresults, fun g hg hall => ?_⟩
  have hdone := h.whole g hg fun e he =>
    ⟨(hall e he).1, (hp.entries g hg e he).symm.trans (hall e he).2⟩
  exact fun e he => (congrFun hp.results e).trans (hdone e he)

/-- The module is kept in every run. -/
theorem kept_final (w : U32 → U32) (p : U32) (events : List (Event × Takes)) :
    Kept L w (Run.final (step L) (.start w p) events) :=
  Run.final_of_every (C := fun _ _ => True)
    (fun _ _ _ h => step_keeps (fun _ hf _ h => h.installer hf) (fun _ _ hp h => h.patched hp)
      (fun _ _ h => ⟨h.words, h.results, h.whole⟩) h)
    (Run.every_true _ events) (.start w p)

/-- A word that has been replaced leads into the plugin. -/
theorem Hooked.reaches (h : s.Hooked L k) : s.Reaches L k := by
  unfold Reaches
  rw [show s.words k.site = L.word k from h]
  exact L.decode_word k

/-- In every run, whatever stores take, a word of the module is what it was, or it was
what it should be and leads to its function of the plugin now; the permissions are as
they were; and an entry that counts as taken over leads into the plugin. -/
theorem module_kept (L : Layout) (w : U32 → U32) (p : U32) (events : List (Event × Takes)) :
    (∀ a, (Run.final (step L) (.start w p) events).words a = w a ∨
        ∃ k : Hook, a = k.site ∧ w a = k.original ∧
          (Run.final (step L) (.start w p) events).words a = L.word k ∧
            (Run.final (step L) (.start w p) events).Reaches L k) ∧
      (Run.final (step L) (.start w p) events).permissions = p ∧
        ∀ e, (Run.final (step L) (.start w p) events).patchResult e = patchApplied →
          (Run.final (step L) (.start w p) events).Reaches L (.entry e) := by
  have hkept := kept_final (L := L) w p events
  have hprogress : Progress L (.start w p) (Run.final (step L) (.start w p) events) :=
    Run.final_of_every (P := Progress L (.start w p)) (C := fun _ _ => True)
      (fun s e _ h => h.trans (step_progress s e)) (Run.every_true _ events) (.refl _)
  refine ⟨fun a => ?_, hprogress.permissions, fun e he => (hkept.results e he).2.reaches⟩
  rcases hkept.words a with hsame | ⟨k, rfl, horiginal, hnew⟩
  · exact Or.inl hsame
  · exact Or.inr ⟨k, rfl, horiginal, hnew, Hooked.reaches hnew⟩

/-! ### Announcing the portal -/

/-- The answer that tells the host of the portal. -/
def announcement : Effect := .portal (.ack 1)

/-- How often the host has been told of the portal, as the handler remembers it. -/
def told (σ : Hidv5) : ℕ := if σ.getdevicechangeInitialDelivered then 1 else 0

/-- A handler that does not tell the host. -/
def Quiet (σ : Hidv5) (out : Hidv5 × List HandlerEffect) : Prop :=
  out.1.getdevicechangeInitialDelivered = σ.getdevicechangeInitialDelivered ∧ .ack 1 ∉ out.2

/-- The announcements among the effects of a handler. -/
theorem count_serve (s : Plugin) (out : Hidv5 × List HandlerEffect) :
    (s.serve out).2.count announcement = out.2.count (.ack 1) :=
  List.count_map_of_injective _ _ (fun _ _ h => Effect.portal.inj h) _

/-- A handler that announces the portal remembers it. -/
theorem Quiet.told {out : Hidv5 × List HandlerEffect} (h : Quiet s.portal out) :
    (s.serve out).2.count announcement + told s.portal = told (s.serve out).1.portal := by
  rw [count_serve, List.count_eq_zero.mpr h.2, Nat.zero_add]
  unfold Plugin.told
  rw [show (s.serve out).1.portal = out.1 from rfl, h.1]

/-- Any other answer is no announcement. -/
theorem ack_quiet {r : Int} (hr : r ≠ 1) : HandlerEffect.ack 1 ∉ [.ack r] := by
  simp [hr.symm]

/-- Bytes written before such an answer are no announcement either. -/
theorem write_quiet {addr : U32} {bytes : List U8} {r : Int} (hr : r ≠ 1) :
    HandlerEffect.ack 1 ∉ [.write addr bytes, .ack r] := by
  simp [hr.symm]

/-- GETDEVICECHANGE tells the host if it has not been told. -/
theorem getdevicechange_told (s : Plugin) (mem : Mem) (m : Option IpcMessage) :
    (s.serve (s.portal.getdevicechangeHandler mem m)).2.count announcement + told s.portal =
      told (s.serve (s.portal.getdevicechangeHandler mem m)).1.portal := by
  cases m with
  | none => exact Quiet.told ⟨rfl, List.not_mem_nil⟩
  | some m =>
      unfold Hidv5.getdevicechangeHandler
      dsimp only
      split
      · split
        · next hnew =>
          have hfalse : s.portal.getdevicechangeInitialDelivered = false := by simpa using hnew
          rw [count_serve]
          unfold told
          rw [hfalse]
          rfl
        · exact Quiet.told ⟨rfl, List.not_mem_nil⟩
      · exact Quiet.told ⟨rfl, ack_quiet (by decide)⟩

/-- The handlers but that of GETDEVICECHANGE do not announce the portal. -/
theorem handle_quiet (σ : Hidv5) (mem : Mem) (m : IpcMessage) {h : Hidv5Handler}
    (hne : h ≠ .getdevicechange) : Quiet σ (σ.handle mem m h) := by
  cases h with
  | getversion =>
      unfold Hidv5.handle Hidv5.getversionHandler
      dsimp only
      split_ifs
      · exact ⟨rfl, write_quiet (by decide)⟩
      · exact ⟨rfl, ack_quiet (by decide)⟩
  | getdevicechange => exact absurd rfl hne
  | getdevparams =>
      unfold Hidv5.handle Hidv5.getdevparamsHandler
      dsimp only
      split_ifs
      · exact ⟨rfl, write_quiet (by decide)⟩
      · exact ⟨rfl, ack_quiet (by decide)⟩
  | attachfinish =>
      unfold Hidv5.handle Hidv5.attachfinishHandler
      dsimp only
      split_ifs <;> exact ⟨rfl, ack_quiet (by decide)⟩
  | suspendResume =>
      unfold Hidv5.handle Hidv5.suspendResumeHandler
      dsimp only
      split_ifs <;> exact ⟨rfl, ack_quiet (by decide)⟩
  | cancelEndpoint =>
      unfold Hidv5.handle Hidv5.cancelEndpointHandler
      dsimp only
      split_ifs <;> exact ⟨rfl, ack_quiet (by decide)⟩

/-- The handler of control transfers does not announce the portal. -/
theorem control_quiet (σ : Hidv5) (mem : Mem) (m : IoctlvMessage) :
    Quiet σ (σ.controlTransferHandler mem m) := by
  unfold Hidv5.controlTransferHandler
  cases m.vector with
  | none => exact ⟨rfl, ack_quiet (by decide)⟩
  | some v =>
      dsimp only
      split
      · exact ⟨rfl, ack_quiet (by decide)⟩
      split
      · exact ⟨rfl, ack_quiet (by decide)⟩
      split
      · refine ⟨by dsimp only; split_ifs <;> rfl, fun h => ?_⟩
        have hlen := HandlerEffect.ack.inj (List.mem_singleton.mp h)
        omega
      · exact ⟨rfl, ack_quiet (by decide)⟩

/-- The handler of interrupt transfers does not announce the portal. -/
theorem interrupt_quiet (σ : Hidv5) (mem : Mem) (m : IoctlvMessage) :
    Quiet σ (σ.interruptTransferHandler mem m) := by
  have hrefused : Quiet σ (σ, [.ack (-4)]) := ⟨rfl, ack_quiet (by decide)⟩
  unfold Hidv5.interruptTransferHandler
  cases m.vector with
  | none => exact hrefused
  | some v =>
      dsimp only
      split
      · exact hrefused
      split
      · exact hrefused
      next hlengths =>
      push Not at hlengths
      have hlen : v.2.len.toNat = 32 := congrArg BitVec.toNat hlengths.2.2.2
      have hwrite (bytes : List U8) :
          .ack 1 ∉ [HandlerEffect.write v.2.data bytes, .ack (v.2.len.toNat : Int)] := by
        rw [hlen]
        exact write_quiet (by decide)
      split
      · exact ⟨rfl, hwrite _⟩
      split
      · exact ⟨rfl, hwrite _⟩
      split
      · exact ⟨rfl, hwrite _⟩
      split
      · rw [hlen]
        exact ⟨rfl, ack_quiet (by decide)⟩
      · exact hrefused

/-- A row of installers leaves the variables of the handlers. -/
theorem install_portal (L : Layout) (takes : Takes) (s : Plugin) :
    (installUntil (installers L takes) s).2.portal = s.portal ∧
      (installAll (installers L takes) s).portal = s.portal := by
  have hkeeps : ∀ f ∈ installers L takes, ∀ s', s'.portal = s.portal →
      (f s').2.portal = s.portal := by
    intro f hf s' hs'
    obtain ⟨g, hg, hinstalls⟩ := installer_group hf
    exact (hinstalls s').moves.portal.trans hs'
  exact ⟨installUntil_keeps hkeeps rfl, installAll_keeps hkeeps rfl⟩

/-- A discovery that the plugin handles: refused if an installer fails, else handled as
GETDEVICECHANGE. -/
theorem bootstrap_cases (L : Layout) (takes : Takes) (s : Plugin) (mem : Mem)
    (m : Option IpcMessage) :
    (installUntil (installers L takes) s).1 = false ∧
        s.hidDiscoveryBootstrap L takes mem m = ((installUntil (installers L takes) s).2,
          if m.isSome then [.portal (.ack (-4))] else []) ∨
      (installUntil (installers L takes) s).1 = true ∧
        (installUntil (installers L takes) s).2.Complete ∧
          s.hidDiscoveryBootstrap L takes mem m =
            (installUntil (installers L takes) s).2.serve
              (s.portal.getdevicechangeHandler mem m) := by
  obtain ⟨hcomplete, -, -⟩ := install_complete L takes s
  unfold hidDiscoveryBootstrap
  rw [← (install_portal L takes s).1]
  generalize installUntil (installers L takes) s = out at hcomplete ⊢
  obtain ⟨complete, s'⟩ := out
  cases complete with
  | false => exact Or.inl ⟨rfl, rfl⟩
  | true => exact Or.inr ⟨rfl, hcomplete rfl, rfl⟩

/-- The host asks through a discovery call that leads into the plugin. -/
def Asks (L : Layout) (s : Plugin) (e : Event × Takes) : Prop :=
  ∀ mem m, e.1 = .request mem (.discovery m) → s.Reaches L .discoveryCall

/-- What an event tells the host, and that a host that asks is told when every entry is
taken over. -/
structure Tells (s : Plugin) (asks : Prop) (out : Plugin × List Effect) : Prop where
  count : out.2.count announcement + told s.portal = told out.1.portal
  complete : asks → out.1.portal.getdevicechangeInitialDelivered = true →
    s.portal.getdevicechangeInitialDelivered = true ∨ out.1.Complete

/-- A request that leaves the portal and announces nothing. -/
theorem Tells.same {asks : Prop} {out : List Effect} (hs' : s'.portal = s.portal)
    (hout : announcement ∉ out) : Tells s asks (s', out) where
  count := by rw [hs', List.count_eq_zero.mpr hout, Nat.zero_add]
  complete _ htold := Or.inl (hs' ▸ htold)

/-- A request handed to a quiet handler. -/
theorem Tells.serve {asks : Prop} {out : Hidv5 × List HandlerEffect} (h : Quiet s.portal out) :
    Tells s asks (s.serve out) :=
  ⟨h.told, fun _ htold => Or.inl (h.1.symm.trans htold)⟩

/-- Effects without such an answer do not announce the portal. -/
theorem announcement_not_mem {out : List HandlerEffect} (h : .ack 1 ∉ out) :
    announcement ∉ out.map Effect.portal := fun hmem => by
  obtain ⟨e, he, heq⟩ := List.mem_map.mp hmem
  exact h (Effect.portal.inj heq ▸ he)

/-- The bootstrap announces the portal only when the entries are complete. -/
theorem Tells.discovery (s : Plugin) (mem : Mem) (m : Option IpcMessage) :
    Tells s True (s.hidDiscoveryBootstrap L takes mem m) := by
  rcases bootstrap_cases L takes s mem m with ⟨-, hout⟩ | ⟨-, hcomplete, hout⟩
  · rw [hout]
    refine .same (install_portal L takes s).1 ?_
    cases m with
    | none => exact List.not_mem_nil
    | some m => exact (by decide : announcement ∉ [.portal (.ack (-4))])
  · rw [hout]
    have hcount := getdevicechange_told (installUntil (installers L takes) s).2 mem m
    rw [(install_portal L takes s).1] at hcount
    exact ⟨hcount, fun _ _ => Or.inr hcomplete⟩

/-- A request for the version announces nothing. -/
theorem Tells.getversion {asks : Prop} (s : Plugin) (mem : Mem) (m : IpcMessage) :
    Tells s asks (s.getversionHandler L takes mem m) := by
  have hquiet := announcement_not_mem
    (handle_quiet s.portal mem m (h := .getversion) (by decide)).2
  unfold getversionHandler
  dsimp only
  split
  · exact .same (install_portal L takes s).2 hquiet
  · exact .same rfl hquiet

/-- Every event counts the announcements right. -/
theorem step_tells (s : Plugin) (e : Event × Takes) : Tells s (s.Asks L e) (s.step L e) := by
  obtain ⟨event, takes⟩ := e
  have hstock {asks : Prop} : Tells s asks (s, [.stock]) := .same rfl (by decide)
  cases event with
  | patchV4Dispatch => exact .same (patchV4Dispatch_patched L takes s).portal List.not_mem_nil
  | patchHidDiscoveryCall =>
      exact .same (patchHidDiscoveryCall_patched L takes s).portal List.not_mem_nil
  | patchGetversionHandler =>
      exact .same (patchGetversionHandler_patched L takes s).portal List.not_mem_nil
  | request mem r =>
      show Tells s _ (s.request L takes mem r)
      cases r with
      | discovery m =>
          unfold request
          dsimp only
          split
          · exact ⟨(Tells.discovery s mem m).count,
              fun _ => (Tells.discovery s mem m).complete trivial⟩
          next hreach =>
          split
          · exact ⟨getdevicechange_told s mem m, fun h => absurd (h mem m rfl) hreach⟩
          · exact hstock
      | ioctl h hne m =>
          unfold request
          dsimp only
          split
          · split
            · exact .getversion s mem m
            · exact .serve (handle_quiet s.portal mem m hne)
          · exact hstock
      | controlTransfer m =>
          unfold request
          dsimp only
          split
          · exact .serve (control_quiet s.portal mem m)
          · exact hstock
      | interruptTransfer m =>
          unfold request
          dsimp only
          split
          · exact .serve (interrupt_quiet s.portal mem m)
          · exact hstock

/-- In every run the portal is announced once if the handler remembers it, and else never;
and if every discovery finds a call that leads into the plugin, the portal is announced
only when all seven entries lead there too. -/
theorem announced_once (L : Layout) (w : U32 → U32) (p : U32) (events : List (Event × Takes)) :
    (Run.outputs (step L) (.start w p) events).count announcement =
        told (Run.final (step L) (.start w p) events).portal ∧
      (Run.Every (step L) (Asks L) (.start w p) events →
        announcement ∈ Run.outputs (step L) (.start w p) events →
          ∀ g ∈ groups, ∀ e ∈ g,
            (Run.final (step L) (.start w p) events).Reaches L (.entry e)) := by
  have hcount : (Run.outputs (step L) (.start w p) events).count announcement =
      told (Run.final (step L) (.start w p) events).portal := by
    refine Run.outputs_of_every
      (P := fun (s : Plugin) l => l.count announcement = told s.portal) (l := [])
      (C := fun _ _ => True) (fun s l e _ h => ?_) (Run.every_true _ events) rfl
    rw [List.count_append, h, Nat.add_comm]
    exact (step_tells s e).count
  refine ⟨hcount, fun hasks hmem g hg e he => ?_⟩
  have hcomplete : (Run.final (step L) (.start w p) events).portal.getdevicechangeInitialDelivered =
      true → (Run.final (step L) (.start w p) events).Complete := by
    refine Run.final_of_every (P := fun s : Plugin =>
      s.portal.getdevicechangeInitialDelivered = true → s.Complete) (fun s e hask h htold => ?_)
      hasks (fun h => absurd h (by decide : Hidv5.zero.getdevicechangeInitialDelivered ≠ true))
    rcases (step_tells s e).complete hask htold with hbefore | hafter
    · exact step_complete (h hbefore)
    · exact hafter
  have htold : (Run.final (step L) (.start w p) events).portal.getdevicechangeInitialDelivered =
      true := by
    by_contra hnot
    have hzero : told (Run.final (step L) (.start w p) events).portal = 0 := if_neg hnot
    rw [hzero] at hcount
    exact List.count_eq_zero.mp hcount hmem
  exact ((kept_final w p events).results e (hcomplete htold g hg e he)).2.reaches

/-! ### Discoveries that are refused -/

/-- A plugin is stuck exactly if some entry was not what it should be from the start, or
just one of the lifecycle entries has been taken over. -/
theorem Kept.stuck_iff (h : Kept L w s) :
    s.Stuck ↔ (∃ g ∈ groups, ∃ e ∈ g, w e.site ≠ Hook.original (.entry e)) ∨
      (s.Hooked L (.entry attach) ↔ ¬ s.Hooked L (.entry suspend)) := by
  have hhooked {e : Entry} (hw : w e.site = Hook.original (.entry e)) (he : ¬ s.Original e) :
      s.Hooked L (.entry e) := by
    rcases h.words e.site with hsame | ⟨k, hsite, -, hnew⟩
    · exact absurd (hsame.trans hw) he
    · obtain rfl : Hook.entry e = k := Hook.site_injective hsite
      exact hnew
  constructor
  · rintro ⟨g, hg, hdone, e, he, horiginal⟩
    by_cases hw : ∃ g ∈ groups, ∃ e ∈ g, w e.site ≠ Hook.original (.entry e)
    · exact Or.inl hw
    push Not at hw
    have hentry := hhooked (hw g hg e he) horiginal
    have hnot : ¬ ∀ e' ∈ g, s.Hooked L (.entry e') := fun hall =>
      hdone (h.whole g hg fun e' he' => ⟨hw g hg e' he', hall e' he'⟩)
    have hshape : ∀ g ∈ groups, g = [attach, suspend] ∨ ∀ e ∈ g, g = [e] := by decide
    rcases hshape g hg with rfl | hone
    · refine Or.inr ⟨fun ha hs => hnot (mem_lifecycle.mpr ⟨ha, hs⟩), fun hs => ?_⟩
      rcases List.mem_pair.mp he with rfl | rfl
      · exact hentry
      · exact absurd hentry hs
    · refine absurd (fun e' he' => ?_) hnot
      rw [hone e he] at he'
      rwa [List.mem_singleton.mp he']
  · rintro (⟨g, hg, e, he, hw⟩ | hone)
    · refine ⟨g, hg, fun hdone => hw (h.results e (hdone e he)).1, e, he, fun horiginal => hw ?_⟩
      exact h.words.was_old (c := L.cells) (k := .entry e) horiginal
    · have hlifecycle : [attach, suspend] ∈ groups := by decide
      refine ⟨_, hlifecycle, fun hdone => ?_, ?_⟩
      · obtain ⟨ha, hs⟩ := mem_lifecycle.mp hdone
        exact hone.mp (h.results attach ha).2 (h.results suspend hs).2
      · by_cases ha : s.Hooked L (.entry attach)
        · exact ⟨attach, List.mem_cons_self, fun ho => original_ne_hooked ho ha⟩
        · have hs : s.Hooked L (.entry suspend) := not_not.mp fun hs => ha (hone.mpr hs)
          exact ⟨suspend, List.mem_cons_of_mem _ List.mem_cons_self,
            fun ho => original_ne_hooked ho hs⟩

/-- A GETDEVICECHANGE that its handler accepts. -/
def discoveryRequest : IpcMessage := ⟨0x400, iosIoctl, 3, ⟨1, 0, 0, 0x2000, 0x180⟩⟩

/-- The answer of the bootstrap to a request that it cannot serve. -/
def Refuses (L : Layout) (s : Plugin) : Prop :=
  ∀ takes mem m, (s.step L (.request mem (.discovery (some m)), takes)).2 = [.portal (.ack (-4))]

/-- A discovery through a call that leads into the plugin goes to the bootstrap. -/
theorem step_discovery (hcall : s.Hooked L .discoveryCall) (mem : Mem) (m : Option IpcMessage) :
    s.step L (.request mem (.discovery m), takes) = s.hidDiscoveryBootstrap L takes mem m := by
  show s.request L takes mem (.discovery m) = _
  unfold request
  exact if_pos hcall.reaches

/-- With an entry refused every discovery is refused. -/
theorem Stuck.refuses (h : s.Stuck) (hcall : s.Hooked L .discoveryCall) : s.Refuses L := by
  intro takes mem m
  rw [step_discovery hcall]
  rcases bootstrap_cases L takes s mem (some m) with ⟨-, hout⟩ | ⟨htrue, -⟩
  · rw [hout]
    rfl
  · exact absurd (htrue.symm.trans ((install_complete L takes s).2.1 h)) (by decide)

/-- A plugin that is not stuck answers the next discovery whose stores take. -/
theorem not_refuses (h : ¬ s.Stuck) (hcall : s.Hooked L .discoveryCall) : ¬ s.Refuses L := by
  intro hrefuses
  have hout := hrefuses (fun _ _ => true) (fun _ => 0) discoveryRequest
  rw [step_discovery hcall] at hout
  rcases bootstrap_cases L (fun _ _ => true) s (fun _ => 0) (some discoveryRequest) with
    ⟨hfalse, -⟩ | ⟨-, -, hserve⟩
  · exact absurd (hfalse.symm.trans ((install_complete L (fun _ _ => true) s).2.2 h)) (by decide)
  · rw [hserve] at hout
    have haccepts : Hidv5Handler.getdevicechange.accepts (fun _ => 0) discoveryRequest = true := by
      decide
    unfold Hidv5.getdevicechangeHandler serve at hout
    dsimp only at hout
    rw [if_pos haccepts] at hout
    split_ifs at hout <;> exact nomatch hout

/-- Once the discovery call leads into the plugin, every discovery is refused from then
on exactly if some entry was not what it should be from the start, or just one of the two
lifecycle entries has been taken over. -/
theorem refused_forever_iff {L : Layout} {w : U32 → U32} {p : U32}
    {events : List (Event × Takes)}
    (hcall : (Run.final (step L) (.start w p) events).Hooked L .discoveryCall) :
    (∀ later, (Run.final (step L) (Run.final (step L) (.start w p) events) later).Refuses L) ↔
      (∃ g ∈ groups, ∃ e ∈ g, w e.site ≠ Hook.original (.entry e)) ∨
        ((Run.final (step L) (.start w p) events).Hooked L (.entry attach) ↔
          ¬ (Run.final (step L) (.start w p) events).Hooked L (.entry suspend)) := by
  rw [← (kept_final w p events).stuck_iff]
  constructor
  · intro hrefuses
    by_contra hstuck
    exact not_refuses hstuck hcall (hrefuses [])
  · intro hstuck later
    have hlater : (Run.final (step L) (Run.final (step L) (.start w p) events) later).Stuck ∧
        (Run.final (step L) (Run.final (step L) (.start w p) events) later).Hooked L
          .discoveryCall :=
      Run.final_of_every (P := fun s : Plugin => s.Stuck ∧ s.Hooked L .discoveryCall)
        (C := fun _ _ => True)
        (fun s e _ h => ⟨step_stuck h.1,
          (step_progress s e).words.keeps (c := L.cells) (k := .discoveryCall) h.2⟩)
        (Run.every_true _ later) ⟨hstuck, hcall⟩
    exact hlater.1.refuses hlater.2

/-- Functions that lie as far behind the words they are for as the plugin does. -/
def shiftedLayout : Layout where
  target k := k.site + 0x00318000
  aligned k := by rcases k with ((_ | _ | _ | _ | _ | _) | _ | _) | _ | _ | _ <;> decide
  near k := by rcases k with ((_ | _ | _ | _ | _ | _) | _ | _) | _ | _ | _ <;> decide
  outside k := by rcases k with ((_ | _ | _ | _ | _ | _) | _ | _) | _ | _ | _ <;> decide

/-- The words of the module. -/
def stockWords (a : U32) : U32 :=
  if a = Hook.site .discoveryCall then Hook.original .discoveryCall
  else if a = Hook.site .ioctlCall then Hook.original .ioctlCall
  else if a = Hook.site .closeCall then Hook.original .closeCall
  else 0xe1a0c00d

/-- A first discovery during which the store to SUSPEND_RESUME does not take. -/
def halfInstalled : List (Event × Takes) :=
  [(.patchHidDiscoveryCall, fun _ _ => true),
    (.request (fun _ => 0) (.discovery (some discoveryRequest)), fun a _ => a ≠ suspend.site)]

/-- A further discovery, during which every store takes, is refused too. -/
theorem refused_forever_iff_halfInstalled :
    (Run.final (step shiftedLayout)
      (Run.final (step shiftedLayout) (.start stockWords 0) halfInstalled)
      [(.request (fun _ => 0) (.discovery (some discoveryRequest)), fun _ _ => true)]).Refuses
        shiftedLayout :=
  (@refused_forever_iff shiftedLayout stockWords 0 halfInstalled (by decide)).mpr
    (Or.inr (by decide)) _

end Plugin
end VirtualPortal
