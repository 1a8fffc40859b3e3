/-
# What a message can do to the portal service

The branches of `ioctl_request`, `ioctlv_request` and the loop of `main`, each stated
once (`Handled`), and that the list is complete (`handle_cases`).  What is said of
every message is proved from the list, one case for an outcome.

`answered_in_bounds`: every message is acknowledged once and last, what it writes lies
in the buffer that takes the answer, and one that is refused leaves the service as it
is, but for the first load of the figures.
-/

import VirtualPortal.PortalCore.Service

namespace VirtualPortal
namespace PortalCore

/-- The buffer of a message that takes the answer: its address and its size. -/
def Delivery.buffer (d : Delivery) : Option (U32 × ℕ) :=
  match d.message with
  | .ioctl io => some (io.bufferIo, io.lengthIo.toNat)
  | .ioctlv m => m.vector.map fun v => (v.2.data, v.2.len.toNat)
  | _ => none

/-- The bytes lie in that buffer, and it is there. -/
def Delivery.Fits (d : Delivery) (addr : U32) (bytes : List U8) : Prop :=
  addr ≠ 0 ∧ ∃ size, d.buffer = some (addr, size) ∧ bytes.length ≤ size

/-- The transfers that the service carries out once it is resumed. -/
inductive CoreTransfer where
  /-- A control transfer with a report that is accepted. -/
  | report (addr : U32) (len : ℕ) (r : CoreReport)
  /-- An interrupt-IN transfer. -/
  | read (addr : U32) (len : ℕ)

/-- The transfer that a message asks for. -/
def Delivery.transfer (d : Delivery) : Option CoreTransfer :=
  match d.message with
  | .ioctlv m =>
      match m.vector with
      | none => none
      | some (v₀, v₁) =>
          let header := d.mem.bytesAt v₀.data
          if m.numIn + m.numIo ≠ 2 ∨ v₀.data = 0 ∨ v₁.data = 0 then none
          else if ¬ validDevice header v₀.len then none
          else if m.command = 18 then
            if v₀.len < 16 ∨ header 8 ≠ 0x21 ∨ header 9 ≠ 0x09 then none
            else
              (parseReport (d.mem.bytesAt v₁.data) v₁.len.toNat).map
                (.report v₁.data v₁.len.toNat)
          else if m.command = 19 ∧ ¬ v₀.len < 15 ∧ header 14 = 0x81 then
            some (.read v₁.data v₁.len.toNat)
          else none
  | _ => none

/-- What the loop of `main` can do with a message. -/
inductive Handled (c : PortalCore) (d : Delivery) : PortalCore × List CoreEffect → Prop
  | still (result : Int) (hquiet : c.resumed = true → d.transfer = none) :
      Handled c d (c, [.ack result])
  | output (addr : U32) (bytes : List U8) (hfits : d.Fits addr bytes)
      (hquiet : c.resumed = true → d.transfer = none) :
      Handled c d (c, [.write addr bytes, .ack bytes.length])
  | ioctlRefused (io : Ioctl) (h : d.message = .ioctl io) :
      Handled c d (c.loadFirst d.card io, [.ack ipcEinval])
  | ioctl (io : Ioctl) (h : d.message = .ioctl io) (resumed : Bool) (written : Option (List U8))
      (hfits : ∀ bytes ∈ written, d.Fits io.bufferIo bytes) (result : ℕ) :
      Handled c d ({ c.loadFirst d.card io with
          resumed := resumed || (c.loadFirst d.card io).resumed },
        (written.map (.write io.bufferIo)).toList ++ [.ack result])
  | reload (io : Ioctl) (h : d.message = .ioctl io) (hreload : io.command = skylandersReload) :
      Handled c d ({ c with figuresLoaded := false }.loadFigures d.card, [.ack (0 : ℕ)])
  | report (addr : U32) (len : ℕ) (r : CoreReport) (hresumed : c.resumed = true)
      (htransfer : d.transfer = some (.report addr len r))
      (hfits : d.Fits addr (r.echo (d.mem.bytesAt addr) len)) :
      Handled c d ((c.applyReport (d.mem.bytesAt addr) r).1,
        .write addr (r.echo (d.mem.bytesAt addr) len) ::
          (c.applyReport (d.mem.bytesAt addr) r).2 ++ [.ack (len + 8 : ℕ)])
  | read (addr : U32) (len : ℕ) (hresumed : c.resumed = true)
      (htransfer : d.transfer = some (.read addr len))
      (hfits : d.Fits addr (c.interruptIn d.card len).1) :
      Handled c d ((c.interruptIn d.card len).2.1,
        .write addr (c.interruptIn d.card len).1 :: (c.interruptIn d.card len).2.2 ++
          [.ack (c.interruptIn d.card len).1.length])

variable (c : PortalCore)

/-- An echo is as long as it says. -/
theorem length_echo (report : ℕ → U8) (len : ℕ) (r : CoreReport) :
    (r.echo report len).length = len := (List.length_map ..).trans List.length_range

/-- An empty report is none. -/
theorem parseReport_zero (report : ℕ → U8) : parseReport report 0 = none := by
  have hne {n : ℕ} (hn : 0 < n) (r : Option CoreReport) : (if 0 ≠ n then none else r) = none :=
    if_pos (Nat.ne_of_lt hn)
  unfold parseReport
  rw [hne (by decide), hne (by decide), hne (by decide), hne (by decide), hne (by decide),
    hne (by decide), hne (by decide), hne (by decide), hne (by decide)]
  simp only [ite_self]

/-- The report of a control transfer: it is echoed and carried out, or refused. -/
theorem handleReport_cases (report : ℕ → U8) (len : ℕ) :
    c.handleReport report len =
      (parseReport report len).map fun r =>
        (r.echo report len, ((len + 8 : ℕ) : Int), c.applyReport report r) := by
  unfold handleReport
  split_ifs with hlen
  · rw [hlen, parseReport_zero]
    rfl
  · cases parseReport report len <;> rfl

/-- The bytes of a read fit its buffer. -/
theorem length_interruptIn (v : CardView) (len : ℕ) : (c.interruptIn v len).1.length ≤ len := by
  unfold interruptIn
  dsimp only
  split
  · exact (List.length_take_le ..).trans (min_le_right ..)
  · exact (List.length_take_le ..).trans (min_le_right ..)

/-- The answers of `ioctl_request`. -/
theorem ioctl_handled {d : Delivery} {io : Ioctl} (h : d.message = .ioctl io) :
    c.Handled d ((c.ioctlRequest d.mem d.card io).2.1,
      (c.ioctlRequest d.mem d.card io).2.2 ++ [.ack (c.ioctlRequest d.mem d.card io).1]) := by
  have hfits {n : ℕ} {bytes : List U8} (haddr : io.bufferIo ≠ 0) (hsize : io.lengthIo.toNat = n)
      (hlength : bytes.length = n) : ∀ b ∈ some bytes, d.Fits io.bufferIo b := by
    rintro b hb
    obtain rfl := Option.some.inj hb
    refine ⟨haddr, io.lengthIo.toNat, ?_, by omega⟩
    rw [Delivery.buffer, h]
  have hplain (result : ℕ) : c.Handled d (c.loadFirst d.card io, [.ack result]) :=
    .ioctl io h false none (by simp) result
  unfold ioctlRequest ioctlSwitch
  dsimp only
  split
  · split
    · exact .ioctlRefused io h
    · next hguard =>
      push Not at hguard
      exact .ioctl io h false (some _) (hfits hguard.2.2 (congrArg BitVec.toNat hguard.2.1) rfl) 0
  split
  · split
    · exact .ioctlRefused io h
    · next hguard =>
      push Not at hguard
      refine .ioctl io h false (some _) (hfits hguard.2.2 (congrArg BitVec.toNat hguard.2.1) ?_) 1
      rw [List.length_append, List.length_replicate]
      rfl
  split
  · exact hplain 0
  split
  · split
    · exact .ioctlRefused io h
    · next hguard =>
      push Not at hguard
      exact .ioctl io h true (some _)
        (hfits hguard.2.2.1 (congrArg BitVec.toNat hguard.2.2.2.1) (List.length_ofFn ..)) 0
  split
  · split
    · exact .ioctlRefused io h
    · exact .ioctl io h true none (by simp) 0
  split
  · exact hplain 0
  split
  · next hreload =>
    rw [loadFirst, if_neg fun hload => hload.2 hreload]
    exact .reload io h hreload
  · exact .ioctlRefused io h

/-- The answers of `ioctlv_request`. -/
theorem ioctlv_handled {d : Delivery} {m : IoctlvRequest} (h : d.message = .ioctlv m) :
    c.Handled d ((c.ioctlvRequest d.mem d.card m).2.1,
      (c.ioctlvRequest d.mem d.card m).2.2 ++ [.ack (c.ioctlvRequest d.mem d.card m).1]) := by
  have htransfer : d.transfer = d.transfer := rfl
  conv_rhs at htransfer => unfold Delivery.transfer
  rw [h] at htransfer
  dsimp only at htransfer
  unfold ioctlvRequest
  split
  · next hvector =>
    rw [hvector] at htransfer
    exact .still _ fun _ => htransfer
  next v₀ v₁ hvector =>
  rw [hvector] at htransfer
  have hfits {bytes : List U8} (haddr : v₁.data ≠ 0) (hlength : bytes.length ≤ v₁.len.toNat) :
      d.Fits v₁.data bytes := by
    refine ⟨haddr, v₁.len.toNat, ?_, hlength⟩
    rw [Delivery.buffer, h]
    dsimp only
    rw [hvector]
    rfl
  dsimp only at htransfer ⊢
  split
  · next hvectors =>
    rw [if_pos hvectors] at htransfer
    exact .still _ fun _ => htransfer
  next hvectors =>
  rw [if_neg hvectors] at htransfer
  push Not at hvectors
  split
  · next hdevice =>
    refine .still _ fun hresumed => ?_
    rw [htransfer, if_pos (hdevice.resolve_left (not_not.mpr hresumed))]
  next hdevice =>
  push Not at hdevice
  rw [if_neg (not_not.mpr hdevice.2)] at htransfer
  split
  · next hcontrol =>
    rw [if_pos hcontrol] at htransfer
    split
    · next hheader =>
      rw [if_pos hheader] at htransfer
      exact .still _ fun _ => htransfer
    next hheader =>
    rw [if_neg hheader] at htransfer
    rw [handleReport_cases]
    cases hparse : parseReport (d.mem.bytesAt v₁.data) v₁.len.toNat with
    | none =>
        rw [hparse] at htransfer
        exact .still _ fun _ => htransfer
    | some r =>
        rw [hparse] at htransfer
        exact .report v₁.data v₁.len.toNat r hdevice.1 htransfer
          (hfits hvectors.2.2 (length_echo ..).le)
  next hcontrol =>
  rw [if_neg hcontrol] at htransfer
  split
  · next hinterrupt =>
    split
    · next hshort =>
      rw [if_neg fun hread => hread.2.1 hshort] at htransfer
      exact .still _ fun _ => htransfer
    next hshort =>
    split
    · next hout =>
      rw [if_neg fun hread => absurd (hout.symm.trans hread.2.2) (by decide)] at htransfer
      split
      · have hlength : ((List.range v₁.len.toNat).map (d.mem.bytesAt v₁.data)).length =
            v₁.len.toNat := (List.length_map ..).trans List.length_range
        have houtput := Handled.output (c := c) v₁.data _ (hfits hvectors.2.2 hlength.le)
          fun _ => htransfer
        rw [hlength] at houtput
        exact houtput
      · exact .still _ fun _ => htransfer
    split
    · next hendpoint =>
      rw [if_neg fun hread => hendpoint hread.2.2] at htransfer
      exact .still _ fun _ => htransfer
    · next hendpoint =>
      rw [if_pos ⟨hinterrupt, hshort, not_not.mp hendpoint⟩] at htransfer
      exact .read v₁.data v₁.len.toNat hdevice.1 htransfer
        (hfits hvectors.2.2 (c.length_interruptIn d.card v₁.len.toNat))
  · next hinterrupt =>
    rw [if_neg fun hread => hinterrupt hread.1] at htransfer
    exact .still _ fun _ => htransfer

/-- An ioctl is no transfer. -/
theorem transfer_ioctl {d : Delivery} {io : Ioctl} (h : d.message = .ioctl io) :
    d.transfer = none := by
  unfold Delivery.transfer
  rw [h]

/-- The list of outcomes is complete. -/
theorem handle_cases (d : Delivery) : c.Handled d (c.handle d) := by
  have hquiet (h : ∀ m, d.message ≠ .ioctlv m) : d.transfer = none := by
    unfold Delivery.transfer
    split
    · next m hm => exact absurd hm (h m)
    · rfl
  unfold handle
  split
  · next h => exact .still _ fun _ => hquiet fun m => by rw [h]; exact nofun
  · next h => exact .still _ fun _ => hquiet fun m => by rw [h]; exact nofun
  · next io h => exact c.ioctl_handled h
  · next m h => exact c.ioctlv_handled h
  · next h => exact .still _ fun _ => hquiet fun m => by rw [h]; exact nofun

/-! ### Acknowledgements -/

/-- The answer to a message: what is written lies in the buffer of the message, the
acknowledgement comes once and last, and a message that is refused leaves the service as
it is, but for the first load of the figures. -/
structure Answered (c : PortalCore) (d : Delivery) : Prop where
  once : ∃ effects result, (c.handle d).2 = effects ++ [.ack result] ∧ ∀ r, .ack r ∉ effects
  fits : ∀ addr bytes, .write addr bytes ∈ (c.handle d).2 → d.Fits addr bytes
  refused : .ack ipcEinval ∈ (c.handle d).2 → (c.handle d).2 = [.ack ipcEinval] ∧
    ((c.handle d).1 = c ∨
      ∃ io, d.message = .ioctl io ∧ (c.handle d).1 = c.loadFirst d.card io)

/-- The effects of a message before its acknowledgement neither acknowledge nor write. -/
def Inner (effects : List CoreEffect) : Prop :=
  ∀ e ∈ effects, (∀ r, e ≠ .ack r) ∧ ∀ addr bytes, e ≠ .write addr bytes

/-- The effects of a queued answer do not reach the host. -/
theorem queueResponse_inner (r : DeferredReport) : Inner (c.queueResponse r).2 := by
  unfold queueResponse
  split_ifs <;> intro e he <;> obtain rfl := List.mem_singleton.mp he <;>
    refine ⟨fun _ h => ?_, fun _ _ h => ?_⟩ <;> cases h

/-- A report has the effects of queueing its answer, or none. -/
theorem applyReport_effects (data : ℕ → U8) (r : CoreReport) :
    (c.applyReport data r).2 = [] ∨
      ∃ c' a, (c.applyReport data r).2 = (queueResponse c' a).2 := by
  cases r with
  | activate b => exact Or.inr ⟨_, _, rfl⟩
  | light => exact Or.inr ⟨_, _, rfl⟩
  | music b => exact Or.inr ⟨_, _, rfl⟩
  | query slot block => exact Or.inr ⟨_, _, rfl⟩
  | ready => exact Or.inr ⟨_, _, rfl⟩
  | write slot block => exact Or.inr ⟨_, _, rfl⟩
  | silent => exact Or.inl rfl

/-- The effects of a report do not reach the host. -/
theorem applyReport_inner (data : ℕ → U8) (r : CoreReport) : Inner (c.applyReport data r).2 := by
  rcases c.applyReport_effects data r with h | ⟨c', a, h⟩
  · rw [h]
    exact nofun
  · rw [h]
    exact c'.queueResponse_inner a

/-- The effects inside an interrupt transfer do not reach the host. -/
theorem interruptIn_inner (v : CardView) (len : ℕ) : Inner (c.interruptIn v len).2.2 := by
  unfold interruptIn
  dsimp only
  split <;> intro e he <;> obtain rfl := List.mem_singleton.mp he <;> exact ⟨nofun, nofun⟩

/-- An answer that counts bytes is no refusal. -/
theorem ack_ne_einval (n : ℕ) : CoreEffect.ack ipcEinval ≠ .ack (n : Int) := by
  intro h
  have hn : (-4 : Int) = n := CoreEffect.ack.inj h
  omega

/-- An answer that writes what it says into the buffer of the message. -/
theorem answered_of_inner {d : Delivery} {addr : U32} {bytes : List U8} {e : List CoreEffect}
    {n : ℕ} (hfits : d.Fits addr bytes) (hinner : Inner e)
    (h : (c.handle d).2 = .write addr bytes :: e ++ [.ack (n : Int)]) : c.Answered d := by
  refine ⟨⟨.write addr bytes :: e, n, h, fun r hr => ?_⟩, fun addr' bytes' hw => ?_, ?_⟩
  · rcases List.mem_cons.mp hr with hr | hr
    · exact nomatch hr
    · exact (hinner _ hr).1 r rfl
  · rw [h] at hw
    rcases List.mem_append.mp hw with hw | hw
    · rcases List.mem_cons.mp hw with hw | hw
      · cases hw
        exact hfits
      · exact absurd rfl ((hinner _ hw).2 addr' bytes')
    · exact nomatch List.mem_singleton.mp hw
  · intro hack
    rw [h] at hack
    rcases List.mem_append.mp hack with hack | hack
    · rcases List.mem_cons.mp hack with hack | hack
      · exact nomatch hack
      · exact absurd rfl ((hinner _ hack).1 _)
    · exact absurd (List.mem_singleton.mp hack) (ack_ne_einval n)

/-- Every message to the service, in any state of it, is answered within its buffer. -/
theorem answered_in_bounds (d : Delivery) : c.Answered d := by
  have hcases := c.handle_cases d
  have halone {result : Int} {c' : PortalCore} (hout : c.handle d = (c', [.ack result]))
      (hc' : .ack ipcEinval = CoreEffect.ack result → c' = c ∨
        ∃ io, d.message = .ioctl io ∧ c' = c.loadFirst d.card io) : c.Answered d := by
    refine ⟨⟨[], result, by rw [hout]; rfl, nofun⟩, fun addr bytes hw => ?_, fun hack => ?_⟩
    · rw [hout] at hw
      exact nomatch List.mem_singleton.mp hw
    · rw [hout] at hack ⊢
      have hresult := List.mem_singleton.mp hack
      exact ⟨by rw [hresult], hc' hresult⟩
  generalize hout : c.handle d = out at hcases
  cases hcases with
  | still result hquiet => exact halone hout fun _ => Or.inl rfl
  | output addr bytes hfits hquiet =>
      exact c.answered_of_inner hfits (e := []) nofun (congrArg Prod.snd hout)
  | ioctlRefused io h => exact halone hout fun _ => Or.inr ⟨io, h, rfl⟩
  | ioctl io h resumed written hfits result =>
      cases written with
      | none => exact halone hout fun hack => absurd hack (ack_ne_einval result)
      | some bytes =>
          exact c.answered_of_inner (hfits bytes rfl) (e := []) nofun (congrArg Prod.snd hout)
  | reload io h hreload => exact halone hout fun hack => absurd hack (ack_ne_einval 0)
  | report addr len r hresumed htransfer hfits =>
      exact c.answered_of_inner hfits (c.applyReport_inner _ r) (congrArg Prod.snd hout)
  | read addr len hresumed htransfer hfits =>
      exact c.answered_of_inner hfits (c.interruptIn_inner d.card len) (congrArg Prod.snd hout)

/-! ### Interrupt transfers -/

/-- An answer is taken, or the codes are reported. -/
def OfRead : CoreEffect → Prop
  | .answered _ => True
  | .reported _ => True
  | _ => False

/-- These two happen in interrupt transfers only, and the host gets the bytes of the
transfer. -/
theorem handle_ofRead {d : Delivery} {e : CoreEffect} (he : OfRead e) (h : e ∈ (c.handle d).2) :
    ∃ addr len, d.transfer = some (.read addr len) ∧ e ∈ (c.interruptIn d.card len).2.2 ∧
      .write addr (c.interruptIn d.card len).1 ∈ (c.handle d).2 := by
  have hack {result : Int} : e ≠ .ack result := fun h => by rw [h] at he; exact he
  have hwrite {addr : U32} {bytes : List U8} : e ≠ .write addr bytes :=
    fun h => by rw [h] at he; exact he
  have hcases := c.handle_cases d
  generalize c.handle d = out at hcases h ⊢
  cases hcases with
  | still result => exact absurd (List.mem_singleton.mp h) hack
  | output addr bytes =>
      rcases List.mem_cons.mp h with h | h
      · exact absurd h hwrite
      · exact absurd (List.mem_singleton.mp h) hack
  | ioctlRefused io => exact absurd (List.mem_singleton.mp h) hack
  | ioctl io _ resumed written =>
      rcases List.mem_append.mp h with h | h
      · cases written with
        | none => exact absurd h List.not_mem_nil
        | some bytes => exact absurd (List.mem_singleton.mp h) hwrite
      · exact absurd (List.mem_singleton.mp h) hack
  | reload io => exact absurd (List.mem_singleton.mp h) hack
  | report addr len r =>
      rcases List.mem_append.mp h with h | h
      · rcases List.mem_cons.mp h with h | h
        · exact absurd h hwrite
        · rcases c.applyReport_effects (d.mem.bytesAt addr) r with hout | ⟨c', a, hout⟩
          · rw [hout] at h
            exact absurd h List.not_mem_nil
          · rw [hout] at h
            unfold queueResponse at h
            split_ifs at h <;> rw [List.mem_singleton.mp h] at he <;> exact he.elim
      · exact absurd (List.mem_singleton.mp h) hack
  | read addr len _ htransfer =>
      refine ⟨addr, len, htransfer, ?_, List.mem_append_left _ List.mem_cons_self⟩
      rcases List.mem_append.mp h with h | h
      · exact (List.mem_cons.mp h).resolve_left hwrite
      · exact absurd (List.mem_singleton.mp h) hack

end PortalCore
end VirtualPortal
