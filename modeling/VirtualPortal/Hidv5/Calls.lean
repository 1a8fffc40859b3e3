/-
# The calls of the stock handlers

`plugin/source/hidv4.h`: `patch_v4_dispatch` replaces the two calls through which the
system module reaches its ioctl and its close handler.  It checks both words before it
changes either, and writes both back if one of the stores does not take.

`calls_lead`: as long as the words can be written back, in every run of the plugin both
calls lead into the plugin, or both lead to the handlers of the module; and these are the
very functions that the plugin hands on to what it does not take (`V4_STOCK_IOCTL`,
`V4_STOCK_CLOSE`), so a request that is handed on ends where it would have without the
plugin.
-/

import VirtualPortal.Hidv5.Bootstrap

namespace VirtualPortal

/-- `V4_STOCK_IOCTL` -/
def v4StockIoctl : ℤ := 0x13658108

/-- `V4_STOCK_CLOSE` -/
def v4StockClose : ℤ := 0x136580d8

namespace Plugin

variable {L : Layout} {takes : Takes} {s s' : Plugin}

/-- Where a call of the module leads. -/
def leads (s : Plugin) (k : Hook) : Option ℤ :=
  decodeArmBranch k.site.toNat (s.words k.site).toNat

/-- Both calls are what they were, or both lead into the plugin. -/
def Paired (L : Layout) (s : Plugin) : Prop :=
  s.words (Hook.site .ioctlCall) = Hook.original .ioctlCall ∧
      s.words (Hook.site .closeCall) = Hook.original .closeCall ∨
    s.Hooked L .ioctlCall ∧ s.Hooked L .closeCall

/-- The stores that write the calls back take. -/
def Restores (takes : Takes) : Prop :=
  takes (Hook.site .ioctlCall) (Hook.original .ioctlCall) = true ∧
    takes (Hook.site .closeCall) (Hook.original .closeCall) = true

/-- `patch_v4_dispatch` changes both calls or neither. -/
theorem patchV4Dispatch_paired (hrestores : Restores takes) (h : s.Paired L) :
    (s.patchV4Dispatch L takes).2.Paired L := by
  rcases patchV4Dispatch_cases L takes s with ⟨-, hout⟩ | ⟨-, s', -, ⟨hboth, hout⟩ | ⟨-, hout⟩⟩
  · rwa [hout]
  · rw [hout]
    exact Or.inr hboth
  · rw [hout]
    refine Or.inl ⟨?_, ?_⟩
    · rw [dcWrite32_words, dcWrite32_words, if_neg fun h => v4_sites h.1,
        if_pos ⟨rfl, hrestores.1⟩]
    · rw [dcWrite32_words, if_pos ⟨rfl, hrestores.2⟩]

/-- Whether the calls are paired depends on their two words. -/
theorem Paired.congr (hioctl : s'.words (Hook.site .ioctlCall) = s.words (Hook.site .ioctlCall))
    (hclose : s'.words (Hook.site .closeCall) = s.words (Hook.site .closeCall))
    (h : s.Paired L) : s'.Paired L := by
  unfold Paired Hooked at *
  rwa [hioctl, hclose]

/-- No installer touches the calls. -/
theorem Paired.installer {f : Plugin → Int × Plugin} (hf : f ∈ installers L takes)
    (h : s.Paired L) : (f s).2.Paired L := by
  obtain ⟨g, -, hinstalls⟩ := installer_group hf
  have hne (k : Hook) (hk : ∀ e, Hook.entry e ≠ k) : (f s).2.words k.site = s.words k.site :=
    (hinstalls s).frame k.site fun e _ hsite =>
      hk e (Hook.site_injective (show k.site = (Hook.entry e).site from hsite)).symm
  exact h.congr (hne .ioctlCall nofun) (hne .closeCall nofun)

/-- Every request keeps the calls paired. -/
theorem step_paired {e : Event × Takes} (hrestores : Restores e.2) (h : s.Paired L) :
    (s.step L e).1.Paired L := by
  obtain ⟨event, takes⟩ := e
  have hother (k : Hook) (s' : Plugin) (hs' : s' = s.replace L takes k)
      (hioctl : Hook.site .ioctlCall ≠ k.site) (hclose : Hook.site .closeCall ≠ k.site) :
      s'.Paired L := by
    subst hs'
    exact h.congr (replace_other _ hioctl) (replace_other _ hclose)
  cases event with
  | patchV4Dispatch => exact patchV4Dispatch_paired hrestores h
  | patchHidDiscoveryCall =>
      show (s.patchHidDiscoveryCall L takes).2.Paired L
      unfold patchHidDiscoveryCall
      split
      · exact h
      · exact hother .discoveryCall _ rfl (by decide) (by decide)
  | patchGetversionHandler =>
      show (s.patchGetversionHandler L takes).2.Paired L
      unfold patchGetversionHandler
      split
      · exact h
      · exact hother (.entry (.ioctl .getversion)) _ rfl (by decide) (by decide)
  | request mem r =>
      exact request_keeps (fun _ hf _ h => h.installer hf) (fun _ _ h => h) h mem r

/-- What is in the module's calls leads to its handlers. -/
theorem leads_original :
    decodeArmBranch (Hook.site .ioctlCall).toNat (Hook.original .ioctlCall).toNat =
        some v4StockIoctl ∧
      decodeArmBranch (Hook.site .closeCall).toNat (Hook.original .closeCall).toNat =
        some v4StockClose := by
  decide

/-- In every run that starts with the module's calls, and in which they can be written
back, both calls lead to the dispatchers of the plugin, or both lead to the handlers to
which these hand on what they do not take. -/
theorem calls_lead {L : Layout} {w : U32 → U32} {p : U32} {events : List (Event × Takes)}
    (hioctl : w (Hook.site .ioctlCall) = Hook.original .ioctlCall)
    (hclose : w (Hook.site .closeCall) = Hook.original .closeCall)
    (hrestores : ∀ e ∈ events, Restores e.2) :
    (Run.final (step L) (.start w p) events).leads .ioctlCall =
          some ((L.target .ioctlCall).toNat : ℤ) ∧
        (Run.final (step L) (.start w p) events).leads .closeCall =
          some ((L.target .closeCall).toNat : ℤ) ∨
      (Run.final (step L) (.start w p) events).leads .ioctlCall = some v4StockIoctl ∧
        (Run.final (step L) (.start w p) events).leads .closeCall = some v4StockClose := by
  have hpaired : (Run.final (step L) (.start w p) events).Paired L :=
    Run.final_of_every (P := Paired L) (fun _ _ hrestores h => step_paired hrestores h)
      (Run.every_of_mem (fun e he _ => hrestores e he) _) (Or.inl ⟨hioctl, hclose⟩)
  obtain ⟨hi, hc⟩ | ⟨hi, hc⟩ := hpaired
  · unfold leads
    rw [hi, hc]
    exact Or.inr leads_original
  · exact Or.inl ⟨hi.reaches, hc.reaches⟩

/-- `patch_v4_dispatch` when the branch does not take at the close call. -/
def closeFails : List (Event × Takes) :=
  [(.patchV4Dispatch, fun _ w => w ≠ shiftedLayout.word .closeCall)]

/-- The second call does not take its word at the start: the first is written back, and
both lead to the stock handlers. -/
theorem calls_lead_closeFails :
    (Run.final (step shiftedLayout) (.start stockWords 0) closeFails).leads .closeCall =
      some v4StockClose := by
  have hrestores : ∀ e ∈ closeFails, Restores e.2 := fun e he => by
    rw [List.mem_singleton.mp he]
    exact ⟨by decide, by decide⟩
  rcases calls_lead (L := shiftedLayout) (w := stockWords) (p := 0) (by decide) (by decide)
    hrestores with ⟨-, h⟩ | ⟨-, h⟩
  · exact absurd h (by decide)
  · exact h

end Plugin
end VirtualPortal
