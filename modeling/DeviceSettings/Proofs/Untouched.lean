import DeviceSettings.Daemon.Running
import DeviceSettings.Doze
import DeviceSettings.KeyEvent
import DeviceSettings.Proofs.Booting

/-!
# What is left alone

Whatever is done with screens, at boot, to the keys and by the daemon, documents are saved and nodes are written, and
nothing else happens to the disk.  An action `Touches` the places of its documents and of its nodes: a node that is
there gets other content, and one that is missing stays missing.  All that a run does is put together from its actions
(`Actions.untouched`).
-/

namespace DeviceSettings

open Disk (Grown)

namespace Disk

variable {d d' d'' : Disk} {documents nodes nodes' : List Path} {x : Place}

/-! ## what becomes of a place -/

/-- What may become of what stands at a place: a directory is made where nothing stood, or a file gets other
content. -/
inductive Becomes (made written : Prop) : Option Entry → Option Entry → Prop
  | same (e : Option Entry) : Becomes made written e e
  | directory (h : made) (mode : Nat) : Becomes made written none (some (.directory mode))
  | file (h : written) (old new : ByteArray) (mode : Nat) :
      Becomes made written (some (.file old mode)) (some (.file new mode))

section
variable {made written made' written' : Prop} {e e' e'' : Option Entry}

theorem Becomes.mono (h : Becomes made written e e') (hm : made → made') (hw : written → written') :
    Becomes made' written' e e' := by
  cases h with
  | same => exact .same _
  | directory h mode => exact .directory (hm h) mode
  | file h old new mode => exact .file (hw h) old new mode

theorem Becomes.trans (h : Becomes made written e e') (h' : Becomes made written e' e'') :
    Becomes made written e e'' := by
  cases h with
  | same => exact h'
  | directory h mode =>
    cases h' with
    | same => exact .directory h mode
  | file h old new mode =>
    cases h' with
    | same => exact .file h old new mode
    | file _ _ newer _ => exact .file h old newer mode

/-- What is neither made nor written stays. -/
theorem Becomes.eq (h : Becomes made written e e') (hm : e = none → ¬made) (hw : ¬written) : e' = e := by
  cases h with
  | same => rfl
  | directory h mode => exact absurd h (hm rfl)
  | file h old new mode => exact absurd h hw

end

/-- Besides the documents the nodes get other content, and the directories that lead to the documents are made. -/
structure Touches (documents nodes : List Path) (d d' : Disk) : Prop where
  grown : Grown (fun x => d.Among documents x ∨ d.Among nodes x) (d.MadeFor documents) d d'
  becomes : ∀ x, ¬d.Among documents x →
    Becomes (d.MadeFor documents x) (d.Among nodes x) (d.at? x) (d'.at? x)

theorem Touches.refl : Touches documents nodes d d := ⟨.refl _, fun _ _ => .same _⟩

theorem Touches.mono (h : Touches documents nodes d d') (hsub : nodes ⊆ nodes') : Touches documents nodes' d d' :=
  ⟨h.grown.mono (fun _ hx => hx.imp_right (·.mono hsub)) fun _ hx => hx,
    fun x hx => (h.becomes x hx).mono id (·.mono hsub)⟩

theorem Touches.trans (h : Touches documents nodes d d') (h' : Touches documents nodes d' d'') :
    Touches documents nodes d d'' := by
  have hamong (ps : List Path) (x : Place) : d'.Among ps x ↔ d.Among ps x := among_congr h.grown.work ps x
  have hmade (x : Place) : d'.MadeFor documents x ↔ d.MadeFor documents x := h.grown.madeFor_iff documents x
  refine ⟨h.grown.trans (h'.grown.mono (fun x hx => ?_) fun x hx => (hmade x).mp hx), fun x hx => ?_⟩
  · rwa [hamong, hamong] at hx
  · refine (h.becomes x hx).trans ((h'.becomes x fun hx' => hx ((hamong _ x).mp hx')).mono ?_ ?_)
    · exact (hmade x).mp
    · exact (hamong nodes x).mp

/-- Saves of documents touch no node. -/
theorem Touches.of_grown {ps : List Path} (h : Grown (d.Among ps) (d.MadeFor ps) d d') (hsub : ps ⊆ documents) :
    Touches documents nodes d d' := by
  refine ⟨h.mono (fun x hx => .inl (hx.mono hsub)) fun x hx => hx.mono hsub, fun x hx => ?_⟩
  rcases h.same x fun hx' => hx (hx'.mono hsub) with heq | ⟨hnone, hdir⟩
  · rw [heq]
    exact .same _
  · have hmade : d.MadeFor ps x := by
      rcases h.fresh x hdir with hold | hmade
      · rw [isDirectoryAt, hnone] at hold
        cases hold
      · exact hmade
    rw [isDirectoryAt] at hdir
    cases hat : d'.at? x with
    | none =>
      rw [hat] at hdir
      cases hdir
    | some e =>
      rw [hat] at hdir
      cases e with
      | directory mode =>
        rw [hnone]
        exact .directory (hmade.mono hsub) mode
      | file content mode => cases hdir
      | sealed cause mode => cases hdir

end Disk

open Disk (Touches Becomes)

variable {ps ns : List Path}

/-- A node gets other content if there is a file to be written. -/
theorem Node.touches_write {d : Device} (ht : d.disk.IsTree) (p : Path) (text : String) (hp : p ∈ ns) :
    Touches ps ns d.disk (write p text d).2.disk := by
  refine ⟨(grown_write ht fun x hx => .inr ⟨p, hp, hx.1⟩).1, fun x _ => ?_⟩
  by_cases hopens : Opens p d
  · obtain ⟨content, mode, he⟩ := isReadable_iff.mp hopens.1
    obtain ⟨hnamed, hat⟩ := Disk.named_of_entry ht he rfl
    obtain ⟨_, -, heq⟩ := write_of_lets ht hopens.2 he text
    rw [heq]
    dsimp only
    by_cases hx : x = d.disk.placeOf p
    · rw [hx, Disk.at?_put_self hnamed.parent.1, hat]
      exact .file ⟨p, hp, rfl⟩ _ _ _
    · rw [Disk.at?_put_ne hx]
      exact .same _
  · obtain ⟨_, heq⟩ := write_of_not_opens hopens text
    rw [heq]
    exact .same _

/-! ## writes that were reported -/

/-- A text that a node was given, and the device right after that. -/
structure Written where
  node : Path
  text : String
  device : Device

/-- The node holds just the text. -/
def Written.Holds (w : Written) : Prop := ∃ mode, w.device.disk.entry w.node = .ok (.file w.text.toUTF8 mode)

/-- A write that is reported successful is one. -/
def Written.reported (success : Bool) (node : Path) (text : String) (after : Device) : List Written :=
  if success then [⟨node, text, after⟩] else []

theorem Written.holds_reported {success : Bool} {node : Path} {text : String} {after : Device}
    (h : success = true → ∃ mode, after.disk.entry node = .ok (.file text.toUTF8 mode)) :
    ∀ w ∈ reported success node text after, w.Holds := by
  intro w hw
  cases success with
  | false => cases hw
  | true =>
    rw [List.mem_singleton.mp hw]
    exact h rfl

/-! ## screens -/

theorem Stores.Saves.touches {s t : Stores} (h : s.Saves t) (ht : s.disk.IsTree) (hs : s.documents ⊆ ps) :
    Touches ps ns s.disk t.disk := .of_grown (h.grown_documents ht) hs

namespace Session

variable {s : Session} {key : Key} {v : Value}

/-- The node of a setting, if it has one. -/
def nodes (s : Session) (key : Key) : List Path := (s.profile.boundNode? key).toList.map (·.1)

/-- What a change that was applied reports of its node. -/
def reported (s : Session) (key : Key) (v : Value) : List Written :=
  (s.nodes key).flatMap fun node =>
    Written.reported ((s.apply key v).1 = .applied) node v.token (s.enter key v).2.stores.device

theorem documents_enter (s : Session) (key : Key) (v : Value) :
    (s.enter key v).2.stores.documents = s.stores.documents := by
  obtain ⟨hpreferences, hpending, -⟩ := stores_enter s key v
  rw [Stores.documents, hpreferences, hpending]
  exact Stores.documents_put s.stores key v

theorem touches_enter (ht : s.stores.disk.IsTree) (hs : s.stores.preferences.documents ⊆ ps) (key : Key) (v : Value) :
    Touches ps (s.nodes key) s.stores.disk (s.enter key v).2.stores.disk := by
  have hput : Touches ps (s.nodes key) s.stores.disk (s.stores.put key v).disk :=
    .of_grown (Stores.grown_put_documents ht key v) hs
  cases hb : s.profile.boundNode? key with
  | none =>
    rw [enter_of_unbound hb]
    exact hput
  | some b =>
    rw [enter_of_bound hb]
    refine hput.trans (Node.touches_write (hput.grown.isTree ht) b.1 v.token ?_)
    rw [nodes, hb]
    exact List.mem_singleton_self _

theorem stores_accept {c : Control} (h : s.showing? key v = some c) :
    (s.accept key v).stores = (s.enter key v).2.stores := by
  rw [accept_of_some h, (enter_screen s (s.screen.set key c) key v).2]

theorem touches_apply (ht : s.stores.disk.IsTree) (hs : s.stores.documents ⊆ ps) :
    Touches ps (s.nodes key) s.stores.disk (s.apply key v).2.stores.disk := by
  rcases apply_cases s key v with ⟨why, heq⟩ | ⟨c, hc, hcases⟩
  · rw [heq]
    exact .refl
  · have hstores := stores_accept hc
    have haccept := touches_enter ht (fun _ hx => hs (List.mem_append_left _ hx)) key v
    have hdocuments := documents_enter s key v
    rw [← hstores] at haccept hdocuments
    rcases hcases with ⟨e, heq⟩ | ⟨-, heq⟩
    · rw [heq]
      exact haccept
    · rw [heq, (checkPocket_same _ key).2.2.1]
      have hsaves := saves_foldl (s.accept key v) ((s.accept key v).dependents key)
      exact haccept.trans (hsaves.touches (haccept.grown.isTree ht) (hdocuments ▸ hs))

/-- The node that took the value holds it when the change is over. -/
theorem entry_applied {node : Path} {kind : Profile.NodeKind} (ht : s.stores.disk.IsTree)
    (hb : s.profile.boundNode? key = some (node, kind))
    (hapart : ¬s.stores.disk.Among s.stores.documents (s.stores.disk.placeOf node))
    (ha : (s.apply key v).1 = .applied) :
    ∃ mode, (s.apply key v).2.stores.disk.entry node = .ok (.file v.token.toUTF8 mode) := by
  obtain ⟨hok, t, hstores, happlied⟩ := stores_applied ha
  obtain ⟨mode, hentry⟩ := entry_enter ht hb hok
  have hgrown := (touches_enter ht (List.Subset.refl _) key v).grown
  have hdocuments := documents_enter s key v
  rw [← hstores] at hentry hgrown hdocuments
  rw [happlied]
  refine ⟨mode, ((saves_foldl t _).grown_documents (hgrown.isTree ht)).entry_again ?_ hentry⟩
  rw [hdocuments, Disk.among_congr hgrown.work, hgrown.placeOf_eq]
  exact hapart

theorem holds_reported (ht : s.stores.disk.IsTree) : ∀ w ∈ s.reported key v, w.Holds := by
  intro w hw
  obtain ⟨node, hnode, hw⟩ := List.mem_flatMap.mp hw
  refine Written.holds_reported (fun ha => ?_) w hw
  obtain ⟨⟨n, kind⟩, hb, rfl⟩ := List.mem_map.mp hnode
  rw [Option.mem_toList] at hb
  exact entry_enter ht hb (stores_applied (of_decide_eq_true ha)).1

end Session

/-! ## booting -/

namespace Boot

/-- The writes that were reported successful when values were restored one after another. -/
def reported : List Restored → Device → List Written
  | [], _ => []
  | r :: rest, d =>
    let after := (Node.write r.node r.value.token d).2
    Written.reported r.written r.node r.value.token after ++ reported rest after

theorem touches_restore (vs : List (Key × Path × Value)) {d : Device} (ht : d.disk.IsTree)
    (hnodes : ∀ v ∈ vs, v.2.1 ∈ ns) : Touches ps ns d.disk (restore vs d).2.disk := by
  induction vs generalizing d with
  | nil => exact .refl
  | cons v vs ih =>
    obtain ⟨hv, hvs⟩ := List.forall_mem_cons.mp hnodes
    have hwrite : Touches ps ns d.disk (Node.write v.2.1 v.2.2.token d).2.disk :=
      Node.touches_write ht v.2.1 v.2.2.token hv
    exact hwrite.trans (ih (hwrite.grown.isTree ht) hvs)

theorem holds_reported (vs : List (Key × Path × Value)) {d : Device} (ht : d.disk.IsTree) :
    ∀ w ∈ reported (restore vs d).1 d, w.Holds := by
  induction vs generalizing d with
  | nil => exact List.forall_mem_nil _
  | cons v vs ih =>
    rw [restore_cons, reported]
    refine List.forall_mem_append.mpr ⟨Written.holds_reported fun hok => ?_, ih ?_⟩
    · exact Node.entry_of_write ht (ok_of_toBool hok)
    · have hwrite : Touches [] [v.2.1] d.disk (Node.write v.2.1 v.2.2.token d).2.disk :=
        Node.touches_write ht v.2.1 v.2.2.token (List.mem_singleton_self _)
      exact hwrite.grown.isTree ht

variable {p : Profile} {s : Preferences} {c : Components} {d : Device}

theorem touches_run (ht : d.disk.IsTree) (hc : c.documents ⊆ ps) :
    Touches ps ((run p s c d).1.restored.map (·.node)) d.disk (run p s c d).2.2.disk
      ∧ ∀ w ∈ reported (run p s c d).1.restored (prepare c d).2, w.Holds := by
  cases hb : p.hasButtons d.disk with
  | false =>
    rw [run_of_bare hb]
    exact ⟨.of_grown (grown_showEntryPoint false c ht) hc, List.forall_mem_nil _⟩
  | true =>
    have hprepare := grown_prepare c ht
    have hnodes : (restore (values p s) (prepare c d).2).1.map (·.node) = (values p s).map (·.2.1) := by
      rw [← map_task_restore (values p s) (prepare c d).2, List.map_map, map_task_restore]
      rfl
    rw [run_of_hasButtons hb]
    dsimp only
    rw [hnodes]
    refine ⟨(Touches.of_grown hprepare hc).trans (touches_restore _ (hprepare.isTree ht) fun v hv => ?_),
      holds_reported _ (hprepare.isTree ht)⟩
    exact List.mem_map_of_mem hv

end Boot

/-! ## keys, the ambient display and the daemon -/

theorem KeySwapper.set_eq {d : Device} {node : Path} (h : isSupported d.disk node = true) (enabled : Bool) :
    set node enabled d = ((Node.write node (Value.switchToken enabled) d).1.map fun _ => true,
      (Node.write node (Value.switchToken enabled) d).2) := by
  rw [set, h]
  cases Node.write node (Value.switchToken enabled) d with
  | mk r after => cases r <;> rfl

theorem KeySwapper.touches_set {d : Device} (ht : d.disk.IsTree) (node : Path) (enabled : Bool) :
    Touches ps [node] d.disk (set node enabled d).2.disk
      ∧ ∀ w ∈ Written.reported ((set node enabled d).1.toOption = some true) node (Value.switchToken enabled)
          (set node enabled d).2, w.Holds := by
  cases h : isSupported d.disk node with
  | false =>
    rw [set, h]
    exact ⟨.refl, List.forall_mem_nil _⟩
  | true =>
    rw [set_eq h]
    refine ⟨Node.touches_write ht node _ (List.mem_singleton_self _), Written.holds_reported fun hok => ?_⟩
    refine Node.entry_of_write ht ?_
    cases hr : (Node.write node (Value.switchToken enabled) d).1 with
    | ok u => rfl
    | error e =>
      rw [hr] at hok
      cases of_decide_eq_true hok

theorem KeyDisabler.touches_set {d : Device} (ht : d.disk.IsTree) (node : Path) (enabled : Bool) :
    Touches ps [node] d.disk (set node enabled d).2.disk
      ∧ ∀ w ∈ Written.reported (set node enabled d).1.toBool node (Value.switchToken !enabled)
          (set node enabled d).2, w.Holds :=
  ⟨Node.touches_write ht node _ (List.mem_singleton_self _),
    Written.holds_reported fun hok => Node.entry_of_write ht (ok_of_toBool hok)⟩

namespace DozeKeys

theorem touches_put {x : DozeState} (ht : x.device.disk.IsTree) (hx : x.preferences.documents ⊆ ps) (key : Key)
    (on : Bool) :
    Touches ps ns x.device.disk (put x key on).device.disk
      ∧ (put x key on).preferences.documents = x.preferences.documents := by
  let s : Stores := ⟨x.preferences, .inMemory, x.device⟩
  refine ⟨.of_grown (Stores.grown_put_documents (s := s) ht key (.switch on)) hx, ?_⟩
  have hpath : (put x key on).preferences.path = x.preferences.path := Change.path_put s key (.switch on)
  rw [Preferences.documents, Preferences.documents, hpath]

theorem touches_turn (k : DozeKeys) (on : Bool) {x : DozeState} (ht : x.device.disk.IsTree)
    (hx : x.preferences.documents ⊆ ps) : Touches ps ns x.device.disk (k.turn on x).2.device.disk := by
  obtain ⟨hfirst, hdocuments⟩ : Touches ps ns x.device.disk (put x k.enabled on).device.disk ∧ _ :=
    touches_put ht hx k.enabled on
  cases on with
  | true => exact hfirst
  | false => exact hfirst.trans (touches_put (hfirst.grown.isTree ht) (hdocuments ▸ hx) k.alwaysOn false).1

theorem touches_switch (k : DozeKeys) (key : Key) (on : Bool) {x : DozeState} (ht : x.device.disk.IsTree)
    (hx : x.preferences.documents ⊆ ps) : Touches ps ns x.device.disk (k.switch key on x).2.2.device.disk := by
  unfold switch
  cases x.screen.get? key with
  | none => exact .refl
  | some c =>
    dsimp only
    split
    · exact .refl
    · exact (touches_put (x := { x with screen := x.screen.set key { c with checked := on } }) ht hx key on).1

end DozeKeys

namespace Daemon.Machine

/-- The machine when the queries of a connection are answered. -/
def served (m : Machine) (r : Running) (b : ByteArray) : Machine :=
  { m with daemon := some { r with state := (serveBytes r.host m.now m.disk b r.state).state } }

/-- A connection is that, and the end of the daemon if it is told to end. -/
theorem connect_eq {m : Machine} {r : Running} (h : m.daemon = some r) (b : ByteArray) :
    m.connect b = some (serveBytes r.host m.now m.disk b r.state,
      if (serveBytes r.host m.now m.disk b r.state).ended then (m.served r b).stopDaemon else m.served r b) := by
  rw [connect, h]
  rfl

end Daemon.Machine

/-! ## what is done to a device -/

/-- Something that is done to a device: its documents are among those given, it tries to write the nodes, and it
reports writes to some of them.  What it is done with is left open: any screen, any stores, in any state.  Opening the
screen of the ambient display is not among them, for that takes no device. -/
inductive Action (documents : List Path) : Device → List Path → List Written → Device → Prop
  | openScreen (s : Session) (hs : s.stores.documents ⊆ documents) :
      Action documents s.stores.device [] [] s.openScreen.stores.device
  | resume (s : Session) (hs : s.stores.documents ⊆ documents) :
      Action documents s.stores.device [] [] s.resume.stores.device
  | apply (s : Session) (key : Key) (v : Value) (hs : s.stores.documents ⊆ documents) :
      Action documents s.stores.device (s.nodes key) (s.reported key v) (s.apply key v).2.stores.device
  | boot (p : Profile) (s : Preferences) (c : Components) (d : Device) (hc : c.documents ⊆ documents) :
      Action documents d ((Boot.run p s c d).1.restored.map (·.node))
        (Boot.reported (Boot.run p s c d).1.restored (Boot.prepare c d).2) (Boot.run p s c d).2.2
  | swapKeys (node : Path) (enabled : Bool) (d : Device) :
      Action documents d [node]
        (Written.reported ((KeySwapper.set node enabled d).1.toOption = some true) node (Value.switchToken enabled)
          (KeySwapper.set node enabled d).2)
        (KeySwapper.set node enabled d).2
  | disableKeys (node : Path) (enabled : Bool) (d : Device) :
      Action documents d [node]
        (Written.reported (KeyDisabler.set node enabled d).1.toBool node (Value.switchToken !enabled)
          (KeyDisabler.set node enabled d).2)
        (KeyDisabler.set node enabled d).2
  | turnDoze (k : DozeKeys) (on : Bool) (x : DozeState) (hx : x.preferences.documents ⊆ documents) :
      Action documents x.device [] [] (k.turn on x).2.device
  | switchDoze (k : DozeKeys) (key : Key) (on : Bool) (x : DozeState) (hx : x.preferences.documents ⊆ documents) :
      Action documents x.device [] [] (k.switch key on x).2.2.device
  | serve (m : Daemon.Machine) (r : Daemon.Running) (b : ByteArray) (h : m.daemon = some r) :
      Action documents m.device [] [] (m.served r b).device
  /-- time passes, and other steps are to be refused -/
  | pause (d e : Device) (h : e.disk = d.disk) : Action documents d [] [] e

variable {documents nodes : List Path} {written : List Written} {d e : Device}

/-- An action touches its own nodes, and what it reports of them is so. -/
theorem Action.touches (h : Action documents d nodes written e) (ht : d.disk.IsTree) :
    Touches documents nodes d.disk e.disk ∧ ∀ w ∈ written, w.Holds := by
  cases h with
  | openScreen s hs => exact ⟨(Session.saves_opened s).touches ht hs, List.forall_mem_nil _⟩
  | resume s hs => exact ⟨(Session.saves_foldl s _).touches ht hs, List.forall_mem_nil _⟩
  | apply s key v hs => exact ⟨Session.touches_apply ht hs, Session.holds_reported ht⟩
  | boot p s c d hc => exact Boot.touches_run ht hc
  | swapKeys node enabled d => exact KeySwapper.touches_set ht node enabled
  | disableKeys node enabled d => exact KeyDisabler.touches_set ht node enabled
  | turnDoze k on x hx => exact ⟨k.touches_turn on ht hx, List.forall_mem_nil _⟩
  | switchDoze k key on x hx => exact ⟨k.touches_switch key on ht hx, List.forall_mem_nil _⟩
  | serve m r b h => exact ⟨.refl, List.forall_mem_nil _⟩
  | pause d e h =>
    rw [h]
    exact ⟨.refl, List.forall_mem_nil _⟩

/-- Actions one after another, with all the nodes they try to write and all the writes they report. -/
inductive Actions (documents : List Path) (d : Device) : List Path → List Written → Device → Prop
  | refl : Actions documents d [] [] d
  | step {nodes nodes' : List Path} {written written' : List Written} {e f : Device}
      (h : Actions documents d nodes written e) (ha : Action documents e nodes' written' f) :
      Actions documents d (nodes ++ nodes') (written ++ written') f

theorem Actions.touches (h : Actions documents d nodes written e) (ht : d.disk.IsTree) :
    Touches documents nodes d.disk e.disk ∧ ∀ w ∈ written, w.Holds := by
  induction h with
  | refl => exact ⟨.refl, List.forall_mem_nil _⟩
  | step h ha ih =>
    obtain ⟨hbefore, hheld⟩ := ih
    obtain ⟨hthen, hholds⟩ := ha.touches (hbefore.grown.isTree ht)
    refine ⟨?_, List.forall_mem_append.mpr ⟨hheld, hholds⟩⟩
    exact (hbefore.mono (List.subset_append_left _ _)).trans (hthen.mono (List.subset_append_right _ _))

/-- **Nodes are never created or destroyed.**  Whatever is done to a device, the only places where something comes
into being or disappears are those of the documents and of missing directories that lead to them.  Anywhere else a
file gets other content at most, and only if it is one of the nodes that were tried: the node of a setting that was
changed, a node of a setting at boot, or the node of the swapper or the disabler that was set.  Right after a write to
a node that was reported successful the node holds just the text. -/
theorem Actions.untouched (h : Actions documents d nodes written e) (ht : d.disk.IsTree) :
    (∀ x, ¬d.disk.Among documents x →
        Becomes (d.disk.MadeFor documents x) (d.disk.Among nodes x) (d.disk.at? x) (e.disk.at? x))
      ∧ ∀ w ∈ written, ∃ mode, w.device.disk.entry w.node = .ok (.file w.text.toUTF8 mode) :=
  ⟨(h.touches ht).1.becomes, (h.touches ht).2⟩

/-- A panel whose preferences are to be kept in a directory that is missing. -/
def homeless : Session :=
  .start Boot.switchAndText ⟨⟨some ⟨"h/prefs.json"⟩, .empty, none⟩, .inMemory, Boot.nodesDevice []⟩ .inline

/-- The screen is opened, which makes the directory, and the switch is changed: its node holds the token, and the node
of the list setting is as it was. -/
theorem Actions.untouched_homeless :
    let t := homeless.openScreen
    let after := (t.apply "s" (.switch true)).2.stores.disk
    homeless.stores.disk.at? ["h"] = none ∧ after.isDirectoryAt ["h"] = true
      ∧ (∃ mode, (t.enter "s" (.switch true)).2.stores.disk.entry ⟨"w"⟩ = .ok (.file "1".toUTF8 mode))
      ∧ after.at? ["x"] = some (.file .empty Disk.fileMode) := by
  let documents : List Path := homeless.stores.documents
  have hopen : Action documents homeless.stores.device [] [] homeless.openScreen.stores.device :=
    .openScreen homeless (List.Subset.refl _)
  have hsame : homeless.openScreen.stores.documents ⊆ documents := by decide +kernel
  have hrun := (Actions.refl.step hopen).step (.apply homeless.openScreen "s" (.switch true) hsame)
  obtain ⟨hframe, hheld⟩ := hrun.untouched (Disk.isTree_of_entries (by decide +kernel))
  refine ⟨by decide +kernel, by decide +kernel, ?_, ?_⟩
  · refine hheld ⟨⟨"w"⟩, "1", (homeless.openScreen.enter "s" (.switch true)).2.stores.device⟩ ?_
    have happlied : (homeless.openScreen.apply "s" (.switch true)).1 = .applied := by decide +kernel
    have hnodes : homeless.openScreen.nodes "s" = [⟨"w"⟩] := by decide +kernel
    rw [List.nil_append, List.nil_append, Session.reported, hnodes, happlied]
    exact List.mem_singleton_self _
  · have hbefore : homeless.stores.device.disk.at? ["x"] = some (.file .empty Disk.fileMode) := by decide +kernel
    rw [← hbefore]
    refine (hframe ["x"] (by decide +kernel)).eq (fun hnone => ?_) (by decide +kernel)
    rw [hbefore] at hnone
    cases hnone

end DeviceSettings
