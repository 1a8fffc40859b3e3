/-
# Inside the catalogue

In every run the storage code keeps to its arrays and to the records of the catalogue
that has been accepted (`catalogue_bounds`).  The indices need no invariant: whatever
the words of the menu are, they are compared with 16 before they are stored.  The ids
do (`Core.Recorded`): the catalogue is read while nothing is counted, hence while no
figure is shown, and from then on every id that is kept has been compared with the
count.

The labels of a publication end in a zero inside their fields, since a label is shorter
than its field and the buffers are cleared first (`menuReply_terminated`).
-/

import VirtualPortal.Storage.WordSteps
import VirtualPortal.Storage.Slots
import VirtualPortal.Hid.MenuRequests

namespace VirtualPortal

open Storage

/-! ### Terminated labels -/

/-- A label is shorter than its place in a row. -/
theorem labelBytes_lt (compact : U32) :
    (if compact = 2 then 19 else if compact ≠ 0 then 27 else 47) < 48 := by
  split_ifs <;> decide

/-- A label leaves the bytes after its field alone, and the last one of it. -/
theorem byte_e11Label_last {n : ℕ} (out : Bytes n) {off i : ℕ} (catalog : Bytes 16416)
    (compact id : U32) (h : i < off ∨ off + 47 ≤ i) :
    (e11Label out off catalog compact id).byte i = out.byte i := by
  have hlt := labelBytes_lt compact
  unfold e11Label
  dsimp only
  rcases h with h | h
  · exact out.byte_copy_of_lt _ h
  · exact out.byte_copy_of_le _ (by omega)

namespace Machine

/-- The last byte of a label's field is zero. -/
theorem menuReply_terminated (m : Machine) {i : ℕ} (hi : i < 8) :
    m.menuReply.byte (32 + i * 48 + 47) = 0 := by
  have hheader (out : Bytes 416) {o : ℕ} (v : U32) (ho : o ≤ 28) :
      (out.putBe32 o v).byte (32 + i * 48 + 47) = out.byte (32 + i * 48 + 47) :=
    out.byte_putBe32_of_le v (by omega)
  unfold menuReply
  dsimp only
  refine List.foldlRecOn (motive := fun out : Bytes 416 => out.byte (32 + i * 48 + 47) = 0)
    (List.range 8) _ ?_ fun out hout j _ => ?_
  · rw [hheader _ _ (by decide), hheader _ _ (by decide), hheader _ _ (by decide),
      hheader _ _ (by decide), hheader _ _ (by decide), hheader _ _ (by decide),
      hheader _ _ (by decide), hheader _ _ (by decide), Bytes.byte_zero]
  · split_ifs
    · rw [byte_e11Label_last _ _ _ _ (by omega), hout]
    · exact hout

/-- The name that is shown ends in a zero. -/
theorem menuName_terminated (m : Machine) : m.menuName.byte 63 = 0 := by
  unfold menuName
  split
  · rw [byte_e11Label_last _ _ _ _ (by decide), Bytes.byte_zero]
  · exact Bytes.byte_zero 64 63

/-- A publication is the reply and the name of some machine. -/
theorem published_v4Tick {m : Machine} {line : RequestLine} {send : Int} {p : Publication}
    (h : .publish p ∈ (m.v4Tick line send).2) :
    ∃ m' : Machine, p.reply = m'.menuReply ∧ p.name = m'.menuName := by
  have hmailbox {m : Machine} (h : .publish p ∈ (m.e11Mailbox line).2) :
      ∃ m' : Machine, p.reply = m'.menuReply ∧ p.name = m'.menuName := by
    have hpublish {m' : Machine} (h : .publish p ∈ m'.e11Publish.2) :
        ∃ m' : Machine, p.reply = m'.menuReply ∧ p.name = m'.menuName := by
      rw [Effect.publish.inj (List.mem_singleton.mp h)]
      exact ⟨m', rfl, rfl⟩
    by_cases hlooked : (∃ fd, m.route fd = true) ∧ (line 0 = 0x4531324d ∧ line 4 = 0x534b595a) ∧
        (m.menuAlive (line 5)).isSome = true
    · obtain ⟨hroute, hmagic, hsome⟩ := hlooked
      obtain ⟨m', halive⟩ := Option.isSome_iff_exists.mp hsome
      rw [m.e11Mailbox_alive line hroute hmagic halive] at h
      split_ifs at h
      · rcases List.mem_cons.mp h with h | h
        · cases h
        · exact hpublish h
      · exact hpublish h
    · rw [m.e11Mailbox_idle line hlooked] at h
      cases h
  by_cases hturn : (m.ticks + 1) &&& 7 = 0
  · obtain ⟨rest, hrest, htick⟩ := m.v4Tick_mail line send hturn
    rw [htick] at h
    rcases List.mem_append.mp h with h | h
    · exact hmailbox h
    · exact Bool.noConfusion (show true = false from hrest.effects _ h)
  · exact Bool.noConfusion (show true = false from (m.v4Tick_unmailed line send hturn).effects _ h)

end Machine

/-! ### The records of the ids -/

namespace Storage

/-- The catalogue in the buffer has been accepted. -/
def CatalogLoaded (st : Storage) : Prop :=
  catalogValid st.catalog ∧ st.compact = catalogCompact (be32 st.catalog.byte 0)

/-- The count of a loaded catalogue is within the limit of its format. -/
theorem CatalogLoaded.fits {st : Storage} (h : st.CatalogLoaded) :
    be32 st.catalog.byte 4 ≤ catalogLimit st.compact := by
  rw [h.2]
  exact h.1.1.2.2.1

variable {st st' : Storage}

/-- What an event other than a completion does not touch. -/
theorem Move.catalog {out : List Effect} (h : Move st st' out) :
    st'.catalog = st.catalog ∧ st'.compact = st.compact ∧ st'.count = st.count := by
  cases h with
  | begins h => exact h.catalog
  | write slot block bytes hpresent => exact ⟨rfl, rfl, rfl⟩
  | remove hbusy haction hclean => exact ⟨rfl, rfl, rfl⟩
  | job op sent hbusy hprepares => cases hprepares <;> exact ⟨rfl, rfl, rfl⟩

/-- The catalogue and its count stay, and no position or action gets a new id. -/
theorem Recorded.of_ids (h : st.Recorded) (hcompact : st'.compact = st.compact)
    (hcount : st'.count = st.count)
    (hshown : ∀ u i, st'.ui u = some i →
      ∃ v j, st.ui v = some j ∧ (st'.slots i).id = (st.slots j).id)
    (htarget : st'.action = some .load → st.action = some .load ∧ st'.target = st.target) :
    st'.Recorded := by
  refine ⟨?_, fun u i hi => ?_, fun haction => ?_⟩
  · unfold Fits
    rw [hcount, hcompact]
    exact h.fits
  · obtain ⟨v, j, hj, hid⟩ := hshown u i hi
    rw [hid, hcount]
    exact h.shown v j hj
  · obtain ⟨hold, heq⟩ := htarget haction
    rw [heq, hcount]
    exact h.target hold

/-- Taking the old figure out or putting it back leaves the entries of the slots. -/
theorem setOldPresent_id (st : Storage) (present : Bool) (i : Fin 16) :
    ((st.setOldPresent present).slots i).id = (st.slots i).id := by
  unfold setOldPresent
  dsimp only
  split_ifs <;> rfl

/-- `e12_restore` keeps the entries in the catalogue. -/
theorem Recorded.restore (h : st.Recorded) : st.restore.Recorded :=
  h.of_ids rfl rfl (fun u i hi => ⟨u, i, hi, st.setOldPresent_id true i⟩)
    fun haction => nomatch haction

/-- Every move of the figures keeps the entries in the catalogue. -/
theorem Recorded.move {out : List Effect} (h : st.Recorded) (hm : Move st st' out) :
    st'.Recorded := by
  cases hm with
  | begins hb => exact h.begins hb
  | write slot block bytes hpresent =>
      refine h.of_ids rfl rfl (fun u i hi => ⟨u, i, hi, ?_⟩) fun haction => ⟨haction, rfl⟩
      rw [slots_setSlot]
      split_ifs with hslot
      · rw [hslot]
        rfl
      · rfl
  | remove hbusy haction hclean =>
      refine h.of_ids rfl rfl (fun u i hi => ?_) fun haction => nomatch haction
      have hu : u ≠ st.actionUi := by
        rintro rfl
        rw [show st.finishRemove.ui st.actionUi = none from Function.update_self ..] at hi
        cases hi
      rw [show st.finishRemove.ui u = st.ui u from Function.update_of_ne hu ..] at hi
      exact ⟨u, i, hi, (releaseOld_slots st i).1⟩
  | job op sent hbusy hprepares =>
      cases hprepares <;>
        exact h.of_ids rfl rfl (fun u i hi => ⟨u, i, hi, rfl⟩) fun haction => ⟨haction, rfl⟩

/-- The ids that are kept when the catalogue has been read: none. -/
theorem Recorded.recount (h : st.Recorded) (hcount : st.count = 0) (hloaded : st.CatalogLoaded) :
    st.taken.counted.Recorded := by
  refine ⟨hloaded.fits, fun u i hi => ?_, fun haction => ?_⟩
  · have hlt := h.shown u i hi
    rw [hcount] at hlt
    exact absurd hlt (by simp)
  · have hlt := h.target haction
    rw [hcount] at hlt
    exact absurd hlt (by simp)

/-- A figure is put in a slot with the id of the action. -/
theorem Recorded.install (h : st.Recorded) (haction : st.action = some .load)
    (hjob : st.jobSlot = st.target) (slot : Fin 16) (uid : U32) :
    (st.install slot uid).Recorded := by
  refine ⟨h.fits, fun u i hi => ?_, fun haction => nomatch haction⟩
  show ((st.install slot uid).slots i).id < st.count
  have hslots : (st.install slot uid).slots i =
      if i = slot then st.releaseOld.loadedSlot uid else st.releaseOld.slots i :=
    slots_setSlot st.releaseOld slot i _
  rw [hslots]
  split_ifs with hslot
  · show st.jobSlot < st.count
    rw [hjob]
    exact h.target haction
  · have hu : u ≠ st.actionUi := by
      rintro rfl
      rw [show (st.install slot uid).ui st.actionUi = some slot from Function.update_self ..] at hi
      exact hslot (Option.some.inj hi).symm
    rw [show (st.install slot uid).ui u = st.ui u from Function.update_of_ne hu ..] at hi
    rw [(releaseOld_slots st i).1]
    exact h.shown u i hi

/-- Whether a catalogue is loaded depends on it and its format. -/
theorem CatalogLoaded.congr (h : st.CatalogLoaded) (hcatalog : st'.catalog = st.catalog)
    (hcompact : st'.compact = st.compact) : st'.CatalogLoaded := by
  unfold CatalogLoaded
  rw [hcatalog, hcompact]
  exact h

/-- What is counted is a catalogue that has been accepted. -/
def Accepted (st : Storage) : Prop :=
  st.count ≠ 0 → st.CatalogLoaded ∧ st.count = be32 st.catalog.byte 4

/-- Whether a catalogue is accepted depends on it, its format and the count. -/
theorem Accepted.congr (h : st.Accepted) (hsame : st'.catalog = st.catalog ∧
    st'.compact = st.compact ∧ st'.count = st.count) : st'.Accepted := by
  obtain ⟨hcatalog, hcompact, hcount⟩ := hsame
  unfold Accepted
  rw [hcatalog, hcount]
  exact fun hne => ⟨(h hne).1.congr hcatalog hcompact, (h hne).2⟩

/-- A completion counts a catalogue that has been accepted, or leaves it alone. -/
theorem Accepted.completion {out : List Effect} (h : st.Accepted) (hids : st.Recorded)
    (hreading : st.op = .catalog → st.count = 0)
    (hread : st.op = .catalog → 0 ≤ st.result → st.CatalogLoaded)
    (hload : st.op = .load → st.action = some .load ∧ st.jobSlot = st.target)
    (hc : Completion st st' out) : st'.Accepted ∧ st'.Recorded := by
  have htaken : st.taken.Recorded := ⟨hids.fits, hids.shown, hids.target⟩
  cases hc with
  | failed hresult =>
      split_ifs
      · exact ⟨h.congr ⟨rfl, rfl, rfl⟩, htaken.restore⟩
      · exact ⟨h.congr ⟨rfl, rfl, rfl⟩, htaken⟩
  | catalog hresult hop hbegins =>
      have hloaded := hread hop hresult
      have hcounted : st.taken.counted.Accepted := fun _ => ⟨hloaded.congr rfl rfl, rfl⟩
      exact ⟨hcounted.congr hbegins.catalog, (hids.recount (hreading hop) hloaded).begins hbegins⟩
  | saved hresult hop =>
      refine ⟨h.congr ⟨rfl, rfl, rfl⟩, htaken.of_ids rfl rfl (fun u i hi => ⟨u, i, hi, ?_⟩)
        fun haction => ⟨haction, rfl⟩⟩
      unfold saveDone
      dsimp only
      rw [slots_setSlot]
      split_ifs with hslot
      · rw [hslot]
      · rfl
  | rejected hresult hop => exact ⟨h.congr ⟨rfl, rfl, rfl⟩, htaken.restore⟩
  | installed slot hresult hop hdup hslot =>
      obtain ⟨haction, hjob⟩ := hload hop
      exact ⟨h.congr ⟨rfl, rfl, rfl⟩, htaken.install haction hjob slot _⟩

end Storage

/-! ### Runs -/

/-- The catalogue is read while nothing is counted, and ids are below the count. -/
structure Core.Recorded (c : Core) : Prop where
  ids : c.storage.Recorded
  accepted : c.storage.Accepted
  reading : c.phase ≠ .idle → c.storage.op = .catalog → c.storage.count = 0
  read : c.phase = .done → c.storage.op = .catalog → 0 ≤ c.storage.result → c.storage.CatalogLoaded

/-- At the start no catalogue is there and no slot is occupied. -/
theorem Core.Recorded.initial {c : Core} {d : Disk} (h : c.Initial d) : c.Recorded := by
  refine ⟨⟨?_, fun u i hi => ?_, fun haction => ?_⟩, fun hne => absurd h.count hne,
    fun _ _ => h.count, fun hdone => ?_⟩
  · unfold Fits
    rw [h.count]
    exact BitVec.le_def.mpr (Nat.zero_le _)
  · rw [h.ui] at hi
    cases hi
  · rw [h.action] at haction
    cases haction
  · rcases h.phase with hp | hp <;> rw [hp] at hdone <;> cases hdone

/-- Every step of the core keeps the entries in the catalogue. -/
theorem Core.Recorded.step {calls : Calls} {c c' : Core} {out : List Effect} (hc : c.Coherent)
    (hslotted : c.Slotted) (h : c.Recorded) (hs : Core.Step calls c c' out) : c'.Recorded := by
  cases hs with
  | @event st st₁ st' d p out hbegins hmove =>
      have hkept : st'.Accepted := (h.accepted.congr hbegins.catalog).congr hmove.catalog
      have hids := (h.ids.begins hbegins).move hmove
      rcases hc.event hbegins hmove with ⟨op, st₂, rfl, hprepares, rfl⟩ | ⟨hafter, hmoved⟩
      · refine ⟨hids, hkept, fun _ hop => ?_, fun hp => by cases hp⟩
        cases hprepares with
        | catalog hcount => exact hcount
        | save => cases hop
        | load => cases hop
      · have hsame (hp : p ≠ .idle) : st'.op = st.op ∧ st'.result = st.result := by
          rcases hmoved hp with rfl | ⟨slot, block, bytes, -, rfl⟩ <;> exact ⟨rfl, rfl⟩
        have hcatalog : st'.catalog = st.catalog ∧ st'.compact = st.compact ∧
            st'.count = st.count :=
          ⟨hmove.catalog.1.trans hbegins.catalog.1, hmove.catalog.2.1.trans hbegins.catalog.2.1,
            hmove.catalog.2.2.trans hbegins.catalog.2.2⟩
        rw [hafter]
        refine ⟨hids, hkept, fun hp hop => ?_, fun hp hop hresult => ?_⟩
        · exact hcatalog.2.2.trans (h.reading hp ((hsame hp).1.symm.trans hop))
        · have hne : p ≠ .idle := fun hidle => by
            rw [hidle] at hp
            cases hp
          obtain ⟨hop', hresult'⟩ := hsame hne
          exact (h.read hp (hop'.symm.trans hop) (hresult' ▸ hresult)).congr hcatalog.1 hcatalog.2.1
  | complete hcomp =>
      obtain ⟨haccepted, hids⟩ := h.accepted.completion h.ids (h.reading (by simp)) (h.read rfl)
        (hslotted.load (by simp)) hcomp
      exact ⟨hids, haccepted, fun hp => absurd rfl hp, fun hp => by cases hp⟩
  | @run st d op io =>
      have hop : st.op = op := hc.op op rfl
      cases op with
      | catalog =>
          have hcount : st.count = 0 := h.reading (by simp) hop
          refine ⟨⟨?_, h.ids.shown, h.ids.target⟩, fun hne => absurd hcount hne, fun _ _ => hcount,
            fun _ _ hresult => ?_⟩
          · show st.count ≤ _
            rw [hcount]
            exact BitVec.le_def.mpr (Nat.zero_le _)
          · obtain ⟨hcatalog, hcompact, hvalid⟩ := e11CatalogLoad_eq_zero hresult
            show catalogValid (e11CatalogLoad d io st.catalog st.compact).catalog ∧
              (e11CatalogLoad d io st.catalog st.compact).compact =
                catalogCompact (be32 (e11CatalogLoad d io st.catalog st.compact).catalog.byte 0)
            rw [hcatalog, hcompact]
            exact ⟨hvalid, rfl⟩
      | load =>
          have hne : ¬ st.op = .catalog := by rw [hop]; decide
          exact ⟨⟨h.ids.fits, h.ids.shown, h.ids.target⟩, h.accepted.congr ⟨rfl, rfl, rfl⟩,
            fun _ hop' => absurd hop' hne, fun _ hop' => absurd hop' hne⟩
      | save =>
          have hne : ¬ st.op = .catalog := by rw [hop]; decide
          exact ⟨⟨h.ids.fits, h.ids.shown, h.ids.target⟩, h.accepted.congr ⟨rfl, rfl, rfl⟩,
            fun _ hop' => absurd hop' hne, fun _ hop' => absurd hop' hne⟩
  | lose => exact ⟨h.ids, h.accepted, fun _ => h.reading (by simp), fun hp => by cases hp⟩

/-- Every run keeps the ids below the count. -/
theorem System.recorded (d : Disk) (io : StartIo) (as : List Action) :
    (Run.final System.step (System.init d io) as).hid.Recorded ∧
      (Run.final System.step (System.init d io) as).hid.Accepted := by
  obtain ⟨p, -, -, -, h⟩ := System.core_of_every (I := fun c _ => c.Slotted ∧ c.Recorded)
    (fun _ _ _ _ hc h hs => ⟨h.1.step hc hs, h.2.step hc h.1 hs⟩)
    (fun _ h => ⟨.initial h, .initial h⟩) (System.meets_any (System.init d io) as)
  exact ⟨h.ids, h.accepted⟩

/-- **The storage code keeps to its arrays and to the records of the catalogue.**  In every
state that can be reached, a tick with any request in the line and the end of a job
have results, the words of what the model does: no index was past an array, no byte of
the catalogue was read outside the record of an id below the count or outside the
buffer, and no label was written outside its field.  What is counted is a catalogue
that `e11_catalog_load` has accepted, and a publication ends every label with a zero. -/
theorem catalogue_bounds (d : Disk) (io : StartIo) (as : List Action) :
    let m := (Run.final System.step (System.init d io) as).hid
    m.Accepted ∧
    m.words.completeAt = some m.e09Complete.1.words ∧
    ∀ line send,
      m.words.tickAt line send = some ((m.v4Tick line send).1.words, (m.v4Tick line send).2) ∧
      ∀ p, .publish p ∈ (m.v4Tick line send).2 →
        (∀ i < 8, p.reply.byte (32 + i * 48 + 47) = 0) ∧ p.name.byte 63 = 0 := by
  obtain ⟨hids, haccepted⟩ := System.recorded d io as
  intro m
  refine ⟨haccepted, m.completeAt_words,
    fun line send => ⟨m.tickAt_words hids line send, fun p hp => ?_⟩⟩
  obtain ⟨m', hreply, hname⟩ := Machine.published_v4Tick hp
  rw [hreply, hname]
  exact ⟨fun i hi => m'.menuReply_terminated hi, m'.menuName_terminated⟩

end VirtualPortal
