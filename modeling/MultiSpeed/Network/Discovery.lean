import MultiSpeed.Lib.Announcements
import MultiSpeed.Lib.Endpoints
import MultiSpeed.Network.Route
import Mathlib.Data.List.Sort
import Mathlib.Data.String.Basic

/-!
# Discovery of network interfaces

`InterfaceService` of `internal/network`: the enumeration of the interfaces of the host, the
snapshot that is kept of them, and the event that is published where it has changed.  Several
goroutines may refresh the snapshot at a time.
-/

namespace MultiSpeed.Network.Discovery

open AddressText

/-! ## Enumeration -/

structure InterfaceAddress where
  address : List Char
  family : String
  linkLocal : Bool
  deriving DecidableEq, Repr

structure NetworkInterface where
  name : String
  index : ℤ
  operational : Bool
  operationalState : String
  loopback : Bool
  virtual : Bool
  macAddress : String
  mtu : ℤ
  addresses : List InterfaceAddress
  deriving DecidableEq, Repr

/-- A `net.Interface`, its addresses and its file `operstate`, where they can be read. -/
structure HostInterface where
  name : String
  index : ℤ
  mtu : ℤ
  hardwareAddr : String
  up : Bool
  loopback : Bool
  addrs : Option (List (List Char))
  operstate : Option String
  deriving DecidableEq, Repr

/-- The address of `net.ParseCIDR`. -/
def parseCIDR (s : List Char) : Option (BitVec 128) :=
  (cutFirst '/' s).bind fun (addr, mask) ↦
    (Address.parse addr).bind fun address ↦
      let bitLen := match address with | .v4 _ => 32 | .v6 _ _ => 128
      (number? 10 mask).bind fun n ↦
        if address.zone = [] ∧ mask ≠ [] ∧ n ≤ bitLen then some address.toIP else none

def isLinkLocalUnicast (ip : BitVec 128) : Bool :=
  if Address.mapped ip then ip.toNat / 2 ^ 16 % 2 ^ 16 = 169 * 256 + 254
  else ip.toNat / 2 ^ 118 = 0x3FA

def interfaceAddress (raw : List Char) : Option InterfaceAddress :=
  let ipText := (parseCIDR raw).elim raw Address.ipText
  (Address.parseIP ipText).map fun ip ↦
    ⟨Address.ipText ip, if Address.mapped ip then "ipv4" else "ipv6", isLinkLocalUnicast ip⟩

/-- The raw string literal of the source has a backslash, an `x` and two zeros in it. -/
def unreadable : List Char := "/\\\\\\x00".toList

def interfaceOperationalState (iface : HostInterface) : Bool × String :=
  let fallback := if iface.up then "unknown" else "down"
  if iface.name.toList.any (· ∈ unreadable) then (iface.up, fallback)
  else
    match iface.operstate with
    | none => (iface.up, fallback)
    | some raw =>
        let state := trimmed raw
        (iface.up && (state = "up" || state = "unknown"), state)

def looksVirtual (lower : Char → Char) (name : String) : Bool :=
  ["br-", "docker", "veth", "virbr", "vmnet", "wg", "tun", "tap", "tailscale", "zt"].any
    fun start ↦ start.toList.isPrefixOf (name.toList.map lower)

/-- An interface whose addresses cannot be read is left out. -/
def discovered (lower : Char → Char) (iface : HostInterface) : Option NetworkInterface :=
  iface.addrs.map fun addrs ↦
    { name := iface.name
      index := iface.index
      operational := (interfaceOperationalState iface).1
      operationalState := (interfaceOperationalState iface).2
      loopback := iface.loopback
      virtual := looksVirtual lower iface.name
      macAddress := iface.hardwareAddr
      mtu := iface.mtu
      addresses := addrs.filterMap interfaceAddress }

/-! ## Snapshots -/

def addressOrder (first second : InterfaceAddress) : Prop := first.address ≤ second.address

instance : DecidableRel addressOrder := fun first second ↦
  inferInstanceAs (Decidable (first.address ≤ second.address))

def nameOrder (first second : NetworkInterface) : Prop := first.name ≤ second.name

instance : DecidableRel nameOrder := fun first second ↦
  inferInstanceAs (Decidable (first.name ≤ second.name))

/-- The order of `commitSnapshot`. -/
def normalized (items : List NetworkInterface) : List NetworkInterface :=
  (items.map fun item ↦ { item with addresses := item.addresses.insertionSort addressOrder })
    |>.insertionSort nameOrder

def sameInterface (a b : NetworkInterface) : Bool :=
  a.name = b.name && a.operational = b.operational && a.operationalState = b.operationalState &&
    a.macAddress = b.macAddress && a.addresses = b.addresses

def interfaceSnapshotsEqual : List NetworkInterface → List NetworkInterface → Bool
  | [], [] => true
  | a :: as, b :: bs => sameInterface a b && interfaceSnapshotsEqual as bs
  | _, _ => false

/-! ## The service -/

structure InterfaceService where
  items : List NetworkInterface
  refreshedAt : Time
  /-- Refreshes that have released the lock and are still to publish. -/
  publishing : List (List NetworkInterface)
  published : List (List NetworkInterface)

def new (zeroTime : Time) : InterfaceService := ⟨[], zeroTime, [], []⟩

/-- The part of `commitSnapshot` under the lock. -/
def InterfaceService.commitSnapshot (s : InterfaceService) (items : List NetworkInterface)
    (now : Time) : InterfaceService :=
  let items := normalized items
  { s with
    items := items
    refreshedAt := now
    publishing := if interfaceSnapshotsEqual s.items items then s.publishing
      else s.publishing ++ [items] }

/-- `Snapshot`. -/
def InterfaceService.snapshot (s : InterfaceService)
    (includeLoopback includeDown includeVirtual : Bool) : List NetworkInterface :=
  s.items.filter fun item ↦
    (!item.loopback || includeLoopback) && (item.operational || includeDown) &&
      (!item.virtual || includeVirtual)

inductive Action where
  /-- A `Refresh` commits what it has found; `none` is one that is cancelled or fails. -/
  | refresh (found : Option (List NetworkInterface)) (now : Time)
  /-- A `Refresh` publishes its change. -/
  | publish (index : ℕ)

def step (s : InterfaceService) : Action → Option InterfaceService
  | .refresh none _ => some s
  | .refresh (some items) now => some (s.commitSnapshot items now)
  | .publish index => s.publishing[index]?.map fun items ↦
      { s with
        publishing := s.publishing.eraseIdx index
        published := s.published ++ [items] }

/-! ## The normal form -/

instance : Std.Total addressOrder := ⟨fun first second ↦ le_total first.address second.address⟩

instance : IsTrans InterfaceAddress addressOrder := ⟨fun _ _ _ h h' ↦ le_trans h h'⟩

instance : Std.Total nameOrder := ⟨fun first second ↦ le_total first.name second.name⟩

instance : IsTrans NetworkInterface nameOrder := ⟨fun _ _ _ h h' ↦ le_trans h h'⟩

/-- Sorting forgets the order, where the order tells all elements apart. -/
theorem insertionSort_eq_of_perm {α : Type*} (r : α → α → Prop) [DecidableRel r] [Std.Total r]
    [IsTrans α r] {l l' : List α} (hkey : ∀ a ∈ l, ∀ b ∈ l, r a b → r b a → a = b)
    (h : l.Perm l') : l.insertionSort r = l'.insertionSort r := by
  have hperm : (l.insertionSort r).Perm (l'.insertionSort r) :=
    (List.perm_insertionSort r l).trans (h.trans (List.perm_insertionSort r l').symm)
  refine List.Perm.eq_of_pairwise (fun a b ha hb hab hba ↦ ?_)
    (List.pairwise_insertionSort r l) (List.pairwise_insertionSort r l') hperm
  exact hkey a ((List.mem_insertionSort r).mp ha) b
    (h.mem_iff.mpr ((List.mem_insertionSort r).mp hb)) hab hba

/-- Two addresses of the interface with one text are one address. -/
def Keyed (item : NetworkInterface) : Prop :=
  ∀ a ∈ item.addresses, ∀ b ∈ item.addresses, a.address = b.address → a = b

/-- The same interface with its addresses in another order. -/
def Reordered (a b : NetworkInterface) : Prop :=
  a = { b with addresses := a.addresses } ∧ a.addresses.Perm b.addresses

theorem sorted_eq_of_reordered {a b : NetworkInterface} (hkeyed : Keyed a) (h : Reordered a b) :
    ({ a with addresses := a.addresses.insertionSort addressOrder } : NetworkInterface) =
      { b with addresses := b.addresses.insertionSort addressOrder } := by
  obtain ⟨heq, hperm⟩ := h
  rw [insertionSort_eq_of_perm addressOrder (fun p hp q hq hpq hqp ↦
    hkeyed p hp q hq (le_antisymm hpq hqp)) hperm, heq]

/-- The order of discovery does not matter. -/
theorem normalized_eq_of_perm {items others found : List NetworkInterface}
    (hnames : (items.map NetworkInterface.name).Nodup) (hkeyed : ∀ item ∈ items, Keyed item)
    (hperm : items.Perm others) (hsame : List.Forall₂ Reordered others found) :
    normalized items = normalized found := by
  have hmapped : others.map (fun item ↦
      ({ item with addresses := item.addresses.insertionSort addressOrder } : NetworkInterface)) =
        found.map fun item ↦ { item with
          addresses := item.addresses.insertionSort addressOrder } := by
    have hothers : ∀ item ∈ others, Keyed item := fun item h ↦ hkeyed item (hperm.mem_iff.mpr h)
    clear hperm
    induction hsame with
    | nil => rfl
    | cons hone _ ih =>
        rw [List.map_cons, List.map_cons,
          sorted_eq_of_reordered (hothers _ List.mem_cons_self) hone,
          ih fun item h ↦ hothers item (List.mem_cons_of_mem _ h)]
  unfold normalized
  rw [← hmapped]
  refine insertionSort_eq_of_perm nameOrder ?_ (hperm.map _)
  intro a ha b hb hab hba
  obtain ⟨x, hx, rfl⟩ := List.mem_map.mp ha
  obtain ⟨y, hy, rfl⟩ := List.mem_map.mp hb
  have hname : x.name = y.name := le_antisymm hab hba
  rw [List.inj_on_of_nodup_map hnames hx hy hname]

theorem pairwise_normalized (items : List NetworkInterface) :
    (normalized items).Pairwise nameOrder :=
  List.pairwise_insertionSort _ _

theorem mem_normalized {items : List NetworkInterface} {item : NetworkInterface} :
    item ∈ normalized items ↔ ∃ found ∈ items,
      { found with addresses := found.addresses.insertionSort addressOrder } = item := by
  rw [normalized, List.mem_insertionSort, List.mem_map]

/-! ## What is compared -/

/-- The fields that a change of is published. -/
def observed (item : NetworkInterface) : String × Bool × String × String × List InterfaceAddress :=
  (item.name, item.operational, item.operationalState, item.macAddress, item.addresses)

theorem sameInterface_iff {a b : NetworkInterface} :
    sameInterface a b = true ↔ observed a = observed b := by
  simp [sameInterface, observed, and_assoc]

theorem interfaceSnapshotsEqual_iff {a b : List NetworkInterface} :
    interfaceSnapshotsEqual a b = true ↔ a.map observed = b.map observed := by
  induction a generalizing b with
  | nil => cases b <;> simp [interfaceSnapshotsEqual]
  | cons x rest ih =>
      cases b with
      | nil => simp [interfaceSnapshotsEqual]
      | cons y others =>
          rw [interfaceSnapshotsEqual, Bool.and_eq_true, sameInterface_iff, ih, List.map_cons,
            List.map_cons, List.cons.injEq]

/-! ## Runs -/

def InterfaceService.announcements (s : InterfaceService) :
    Announcements.State (List NetworkInterface) :=
  ⟨s.items, s.publishing, s.published⟩

/-- The step of the announced value that an action takes. -/
def announcement : Action → List (Announcements.Action (List NetworkInterface))
  | .refresh none _ => []
  | .refresh (some items) _ => [.commit (normalized items)]
  | .publish index => [.announce index]

theorem run_announcements {s t : InterfaceService} {actions : List Action}
    (hrun : Transition.run step s actions = some t) :
    Transition.run (Announcements.step interfaceSnapshotsEqual) s.announcements
      (actions.flatMap announcement) = some t.announcements := by
  induction actions generalizing s with
  | nil =>
      obtain rfl : s = t := by simpa using hrun
      rfl
  | cons action rest ih =>
      obtain ⟨u, hu, hrest⟩ := (Transition.run_cons_iff step).mp hrun
      rw [List.flatMap_cons]
      refine (Transition.run_append_iff _).mpr ⟨u.announcements, ?_, ih hrest⟩
      cases action with
      | refresh found now =>
          cases found with
          | none =>
              obtain rfl := Option.some.inj hu
              rfl
          | some items =>
              obtain rfl := Option.some.inj hu
              rfl
      | publish index =>
          obtain ⟨items, hitems, rfl⟩ := Option.map_eq_some_iff.mp hu
          rw [announcement, Transition.run_cons_of_step (t := ⟨s.items,
            s.publishing.eraseIdx index, s.published ++ [items]⟩)]
          · rfl
          · rw [Announcements.step]
            exact Option.map_eq_some_iff.mpr ⟨items, hitems, rfl⟩

/-- What the successful refreshes have found, in the order of the lock. -/
def snapshots : List Action → List (List NetworkInterface)
  | [] => []
  | .refresh (some items) _ :: rest => normalized items :: snapshots rest
  | .refresh none _ :: rest | .publish _ :: rest => snapshots rest

theorem commits_announcement (actions : List Action) :
    Announcements.commits (actions.flatMap announcement) = snapshots actions := by
  induction actions with
  | nil => rfl
  | cons action rest ih =>
      rw [List.flatMap_cons]
      match action with
      | .refresh none _ | .publish _ => exact ih
      | .refresh (some items) _ => exact congrArg (normalized items :: ·) ih

/-- What goroutines that refresh at the same time leave behind. -/
structure Announced (s : InterfaceService) (found : List (List NetworkInterface)) : Prop where
  /-- The snapshot is the last one that was found. -/
  items : s.items = Announcements.last [] found
  sorted : s.items.Pairwise nameOrder
  /-- Each change is published once, or is still to be. -/
  changes : (s.published ++ s.publishing).Perm
    (Announcements.changes interfaceSnapshotsEqual [] found)
  view : ∀ loopback down virtual, (s.snapshot loopback down virtual).Sublist s.items

theorem sorted_last {found : List (List NetworkInterface)} {items : List NetworkInterface}
    (hitems : items.Pairwise nameOrder) (hfound : ∀ list ∈ found, list.Pairwise nameOrder) :
    (Announcements.last items found).Pairwise nameOrder := by
  induction found generalizing items with
  | nil => exact hitems
  | cons list rest ih =>
      exact ih (hfound list List.mem_cons_self) fun other h ↦
        hfound other (List.mem_cons_of_mem _ h)

theorem sorted_snapshots (actions : List Action) :
    ∀ list ∈ snapshots actions, list.Pairwise nameOrder := by
  induction actions with
  | nil => exact fun _ h ↦ by cases h
  | cons action rest ih =>
      match action with
      | .refresh none _ | .publish _ => exact ih
      | .refresh (some items) _ =>
          intro list hlist
          rcases List.mem_cons.mp hlist with rfl | hlist
          · exact pairwise_normalized items
          · exact ih list hlist

/-- A change has been published before the next refresh commits. -/
def Prompt (s : InterfaceService) : Action → Prop
  | .refresh (some _) _ => s.publishing = []
  | .refresh none _ | .publish _ => True

theorem guarded_announcements {s : InterfaceService} {actions : List Action}
    (h : Transition.Guarded step Prompt s actions) :
    Transition.Guarded (Announcements.step interfaceSnapshotsEqual) Announcements.Prompt
      s.announcements (actions.flatMap announcement) := by
  induction actions generalizing s with
  | nil => trivial
  | cons action rest ih =>
      obtain ⟨hnow, hlater⟩ := h
      match action with
      | .refresh none _ => exact ih (hlater s rfl)
      | .refresh (some items) now =>
          refine ⟨hnow, fun t ht ↦ ?_⟩
          obtain rfl := Option.some.inj ht
          exact ih (hlater _ rfl)
      | .publish index =>
          refine ⟨trivial, fun t ht ↦ ?_⟩
          obtain ⟨items, hitems, rfl⟩ := Option.map_eq_some_iff.mp ht
          exact ih (hlater _ (Option.map_eq_some_iff.mpr ⟨items, hitems, rfl⟩))

/-- However refreshes overlap, the snapshot is the last discovery, and every change of what is
compared is published exactly once; where each is published before the next refresh commits,
the events come in order, and the last of them agrees with the snapshot. -/
theorem changes_published {zeroTime : Time} {actions : List Action} {s : InterfaceService}
    (hrun : Transition.run step (new zeroTime) actions = some s) :
    Announced s (snapshots actions) ∧
      (Transition.Guarded step Prompt (new zeroTime) actions →
        s.published ++ s.publishing =
            Announcements.changes interfaceSnapshotsEqual [] (snapshots actions) ∧
          (s.publishing = [] →
            (Announcements.last [] s.published).map observed = s.items.map observed)) := by
  have hannounced := run_announcements hrun
  have hitems := Announcements.current_run hannounced
  have hchanges := Announcements.announced_run hannounced
  rw [commits_announcement] at hitems hchanges
  refine ⟨⟨hitems, ?_, hchanges, fun _ _ _ ↦ List.filter_sublist⟩, fun hprompt ↦ ?_⟩
  · change s.items = _ at hitems
    rw [hitems]
    exact sorted_last List.Pairwise.nil (sorted_snapshots actions)
  · have horder := Announcements.announced_run_prompt (guarded_announcements hprompt)
      (Nat.zero_le 1) hannounced
    rw [commits_announcement] at horder
    refine ⟨horder, fun hnone ↦ ?_⟩
    have hpublished : s.published =
        Announcements.changes interfaceSnapshotsEqual [] (snapshots actions) := by
      change s.published ++ s.publishing = _ at horder
      rw [hnone, List.append_nil] at horder
      exact horder
    have hrefl (a : List NetworkInterface) : interfaceSnapshotsEqual a a = true :=
      interfaceSnapshotsEqual_iff.mpr rfl
    have htrans (a b c : List NetworkInterface) (hab : interfaceSnapshotsEqual a b = true)
        (hbc : interfaceSnapshotsEqual b c = true) : interfaceSnapshotsEqual a c = true :=
      interfaceSnapshotsEqual_iff.mpr
        ((interfaceSnapshotsEqual_iff.mp hab).trans (interfaceSnapshotsEqual_iff.mp hbc))
    have hsame := Announcements.same_last_changes hrefl htrans [] (snapshots actions)
    change s.items = _ at hitems
    rw [hpublished, hitems]
    exact interfaceSnapshotsEqual_iff.mp hsame

/-- Two refreshes that overlap, the first of which publishes last. -/
def overtakenRun : List Action :=
  let found (operational : Bool) : List NetworkInterface :=
    [⟨"wan", 2, operational, "up", false, false, "", 1500, []⟩]
  [.refresh (some (found true)) 1, .refresh none 2, .refresh (some (found false)) 3, .publish 1,
    .publish 0]

theorem changes_published_overtaken : ∃ s, Transition.run step (new 0) overtakenRun = some s ∧
    Announced s (snapshots overtakenRun) ∧
      (Announcements.last [] s.published).map observed ≠ s.items.map observed := by
  obtain ⟨s, hs, hdiffer⟩ : ∃ s, Transition.run step (new 0) overtakenRun = some s ∧
      (Announcements.last [] s.published).map observed ≠ s.items.map observed :=
    ⟨_, rfl, by decide⟩
  exact ⟨s, hs, (changes_published hs).1, hdiffer⟩

/-! ## The host -/

/-- The address that an entry of the host stands for. -/
def hostIP (raw : List Char) : Option (BitVec 128) :=
  Address.parseIP ((parseCIDR raw).elim raw Address.ipText)

theorem keyed_discovered {lower : Char → Char} {iface : HostInterface} {item : NetworkInterface}
    (h : discovered lower iface = some item) : Keyed item := by
  obtain ⟨addrs, -, rfl⟩ := Option.map_eq_some_iff.mp h
  intro a ha b hb hab
  obtain ⟨first, -, hfirst⟩ := List.mem_filterMap.mp ha
  obtain ⟨second, -, hsecond⟩ := List.mem_filterMap.mp hb
  obtain ⟨ip, -, rfl⟩ := Option.map_eq_some_iff.mp hfirst
  obtain ⟨ip', -, rfl⟩ := Option.map_eq_some_iff.mp hsecond
  have hip : ip = ip' := Address.ipText_injective hab
  rw [hip]

theorem name_discovered {lower : Char → Char} {iface : HostInterface} {item : NetworkInterface}
    (h : discovered lower iface = some item) : item.name = iface.name := by
  obtain ⟨addrs, -, rfl⟩ := Option.map_eq_some_iff.mp h
  rfl

/-- The interfaces of a host have different names. -/
theorem nodup_discovered {lower : Char → Char} {hosts : List HostInterface}
    (hnames : (hosts.map HostInterface.name).Nodup) :
    ((hosts.filterMap (discovered lower)).map NetworkInterface.name).Nodup := by
  induction hosts with
  | nil => exact List.nodup_nil
  | cons host rest ih =>
      obtain ⟨hfresh, hrest⟩ := List.nodup_cons.mp hnames
      cases hitem : discovered lower host with
      | none =>
          rw [List.filterMap_cons_none hitem]
          exact ih hrest
      | some item =>
          rw [List.filterMap_cons_some hitem, List.map_cons, List.nodup_cons]
          refine ⟨fun hmem ↦ hfresh ?_, ih hrest⟩
          obtain ⟨other, hother, hname⟩ := List.mem_map.mp hmem
          obtain ⟨iface, hiface, hfound⟩ := List.mem_filterMap.mp hother
          rw [← name_discovered hitem, ← hname, name_discovered hfound]
          exact List.mem_map_of_mem hiface

/-- The same interface, with its addresses listed in another order. -/
def Relisted (a b : HostInterface) : Prop :=
  a = { b with addrs := a.addrs } ∧ Option.Rel List.Perm a.addrs b.addrs

theorem reordered_of_relisted (lower : Char → Char) {a b : HostInterface} (h : Relisted a b) :
    Option.Rel Reordered (discovered lower a) (discovered lower b) := by
  obtain ⟨heq, haddrs⟩ := h
  cases a
  cases b
  dsimp only at haddrs
  cases haddrs with
  | none => exact .none
  | some hperm =>
      obtain ⟨rfl, rfl, rfl, rfl, rfl, rfl, -, rfl⟩ := HostInterface.mk.inj heq
      exact .some ⟨rfl, hperm.filterMap _⟩

/-- A refresh that finds the same interfaces in another order only notes the time. -/
theorem rediscovery {lower : Char → Char} {hosts others found : List HostInterface}
    (hnames : (hosts.map HostInterface.name).Nodup) (hperm : hosts.Perm others)
    (hsame : List.Forall₂ Relisted others found) {s : InterfaceService}
    (hitems : s.items = normalized (hosts.filterMap (discovered lower))) (now : Time) :
    step s (.refresh (some (found.filterMap (discovered lower))) now) =
      some { s with refreshedAt := now } := by
  have hreordered : List.Forall₂ Reordered (others.filterMap (discovered lower))
      (found.filterMap (discovered lower)) := by
    clear hperm
    induction hsame with
    | nil => exact .nil
    | cons hone _ ih =>
        have hrel := reordered_of_relisted lower hone
        rcases ha : discovered lower _ with _ | a
        · rw [ha] at hrel
          cases hb : discovered lower _ <;> rw [hb] at hrel <;> cases hrel
          rw [List.filterMap_cons_none ha, List.filterMap_cons_none hb]
          exact ih
        · rw [ha] at hrel
          rcases hb : discovered lower _ with _ | b <;> rw [hb] at hrel
          · cases hrel
          · cases hrel with
            | some hab =>
                rw [List.filterMap_cons_some ha, List.filterMap_cons_some hb]
                exact .cons hab ih
  have hsnapshot : normalized (found.filterMap (discovered lower)) = s.items := by
    rw [hitems]
    refine (normalized_eq_of_perm (nodup_discovered hnames) ?_ (hperm.filterMap _)
      hreordered).symm
    intro item hitem
    obtain ⟨iface, -, hfound⟩ := List.mem_filterMap.mp hitem
    exact keyed_discovered hfound
  have hequal : interfaceSnapshotsEqual s.items s.items = true :=
    interfaceSnapshotsEqual_iff.mpr rfl
  rw [step, InterfaceService.commitSnapshot]
  simp only [hsnapshot, hequal, if_true]

/-- A host with two interfaces. -/
def twoWANs : List HostInterface :=
  [⟨"wan1", 2, 1500, "", true, false, some ["192.0.2.10/24".toList, "2001:db8::10/64".toList],
      some "up\n"⟩,
    ⟨"wan2", 3, 1500, "", true, false, some ["198.51.100.20/24".toList], some "down\n"⟩]

/-- The same host as it is enumerated after an address has been renewed. -/
def relistedWANs : List HostInterface :=
  [⟨"wan2", 3, 1500, "", true, false, some ["198.51.100.20/24".toList], some "down\n"⟩,
    ⟨"wan1", 2, 1500, "", true, false, some ["2001:db8::10/64".toList, "192.0.2.10/24".toList],
      some "up\n"⟩]

theorem rediscovery_relisted :
    step ((new 0).commitSnapshot (twoWANs.filterMap (discovered Char.toLower)) 1)
        (.refresh (some (relistedWANs.filterMap (discovered Char.toLower))) 2) =
      some { (new 0).commitSnapshot (twoWANs.filterMap (discovered Char.toLower)) 1 with
        refreshedAt := 2 } := by
  have hperm : twoWANs.Perm twoWANs.reverse := (List.reverse_perm twoWANs).symm
  have hrelisted : List.Forall₂ Relisted twoWANs.reverse relistedWANs :=
    .cons ⟨rfl, .some (.refl _)⟩ (.cons ⟨rfl, .some (.swap _ _ _)⟩ .nil)
  exact rediscovery (by decide) hperm hrelisted rfl 2

/-! ## Sources -/

/-- What `ValidateSource` reads of a snapshot. -/
def NetworkInterface.view (item : NetworkInterface) : Network.NetworkInterface :=
  ⟨item.name, item.operational, item.addresses.map fun address ↦ .ofList address.address⟩

/-- The addresses of `net`. -/
def goNet : Execution.Net :=
  ⟨fun text ↦ Address.parseIP text.toList, fun ip ↦ .ofList (Address.ipText ip)⟩

/-- The link is up as far as the service looks. -/
def Usable (iface : HostInterface) : Prop :=
  iface.up = true ∧ ((∃ c ∈ iface.name.toList, c ∈ unreadable) ∨
    ∀ raw ∈ iface.operstate, trimmed raw = "up" ∨ trimmed raw = "unknown")

theorem operational_iff (iface : HostInterface) :
    (interfaceOperationalState iface).1 = true ↔ Usable iface := by
  have hname : iface.name.toList.any (· ∈ unreadable) = true ↔
      ∃ c ∈ iface.name.toList, c ∈ unreadable := by simp
  rw [Usable, ← hname, interfaceOperationalState]
  by_cases hany : iface.name.toList.any (· ∈ unreadable) = true
  · simp only [hany, if_true, true_or, and_true]
  · cases iface.operstate with
    | none => simp [hany]
    | some raw => simp [hany]

/-- The interface of that name in the snapshot. -/
theorem find?_snapshot {lower : Char → Char} {hosts : List HostInterface}
    (hnames : (hosts.map HostInterface.name).Nodup) {name : String}
    {item : Network.NetworkInterface} :
    ((normalized (hosts.filterMap (discovered lower))).map NetworkInterface.view).find?
        (fun item ↦ item.name = name) = some item ↔
      ∃ iface ∈ hosts, iface.name = name ∧ ∃ found, discovered lower iface = some found ∧
        item = NetworkInterface.view
          { found with addresses := found.addresses.insertionSort addressOrder } := by
  have hmem : ∀ item, item ∈ (normalized (hosts.filterMap (discovered lower))).map
      NetworkInterface.view ↔ ∃ iface ∈ hosts, ∃ found, discovered lower iface = some found ∧
        item = NetworkInterface.view
          { found with addresses := found.addresses.insertionSort addressOrder } := by
    intro item
    simp only [List.mem_map, mem_normalized, List.mem_filterMap]
    constructor
    · rintro ⟨sorted, ⟨found, ⟨iface, hiface, hfound⟩, rfl⟩, rfl⟩
      exact ⟨iface, hiface, found, hfound, rfl⟩
    · rintro ⟨iface, hiface, found, hfound, rfl⟩
      exact ⟨_, ⟨found, ⟨iface, hiface, hfound⟩, rfl⟩, rfl⟩
  constructor
  · intro h
    obtain ⟨iface, hiface, found, hfound, rfl⟩ := (hmem item).mp (List.mem_of_find?_eq_some h)
    have hname := of_decide_eq_true (p := found.name = name) (List.find?_some h :)
    exact ⟨iface, hiface, (name_discovered hfound).symm.trans hname, found, hfound, rfl⟩
  · rintro ⟨iface, hiface, hname, found, hfound, rfl⟩
    cases hfind : ((normalized (hosts.filterMap (discovered lower))).map
        NetworkInterface.view).find? (fun item ↦ item.name = name) with
    | none =>
        have habsent := List.find?_eq_none.mp hfind _
          ((hmem _).mpr ⟨iface, hiface, found, hfound, rfl⟩)
        exact absurd (decide_eq_true ((name_discovered hfound).trans hname)) habsent
    | some item =>
        obtain ⟨other, hother, found', hfound', rfl⟩ :=
          (hmem item).mp (List.mem_of_find?_eq_some hfind)
        have hname' := of_decide_eq_true (p := found'.name = name) (List.find?_some hfind :)
        have hsame : iface = other := by
          refine List.inj_on_of_nodup_map hnames hiface hother ?_
          rw [hname, ← hname', name_discovered hfound']
        subst hsame
        rw [Option.some.inj (hfound.symm.trans hfound')]

theorem validateSource_none_iff {env : Execution.Env} {items : List Network.NetworkInterface}
    {interfaceName sourceIP : String} :
    validateSource env items interfaceName sourceIP = none ↔
      trimmed interfaceName ≠ "" ∧
        ∃ ip, env.net.parseIP sourceIP = some ip ∧ Assigned env items interfaceName ip := by
  refine ⟨fun h ↦ ⟨fun hblank ↦ ?_, validateSource_none h⟩, ?_⟩
  · rw [validateSource, if_pos hblank] at h
    cases h
  · rintro ⟨hblank, ip, hip, ⟨⟨item, hitem, hup, haddress⟩, hunspecified, hmulticast⟩⟩
    rw [validateSource, if_neg hblank]
    simp [hip, hunspecified, hmulticast, hitem, hup, haddress]

theorem mem_addresses_iff {found : NetworkInterface} {ip : BitVec 128} :
    String.ofList (Address.ipText ip) ∈ (NetworkInterface.view { found with
        addresses := found.addresses.insertionSort addressOrder }).addresses ↔
      ∃ address ∈ found.addresses, address.address = Address.ipText ip := by
  simp only [NetworkInterface.view, List.mem_map, List.mem_insertionSort]
  refine exists_congr fun address ↦ and_congr_right fun _ ↦ ⟨fun h ↦ ?_, fun h ↦ by rw [h]⟩
  simpa using congrArg String.toList h

theorem mem_discovered_iff {addrs : List (List Char)} {ip : BitVec 128} :
    (∃ address ∈ addrs.filterMap interfaceAddress, address.address = Address.ipText ip) ↔
      ∃ raw ∈ addrs, hostIP raw = some ip := by
  constructor
  · rintro ⟨address, haddress, htext⟩
    obtain ⟨raw, hraw, hfound⟩ := List.mem_filterMap.mp haddress
    obtain ⟨ip', hip', rfl⟩ := Option.map_eq_some_iff.mp hfound
    exact ⟨raw, hraw, hip'.trans (congrArg some (Address.ipText_injective htext))⟩
  · rintro ⟨raw, hraw, hip⟩
    exact ⟨_, List.mem_filterMap.mpr ⟨raw, hraw, Option.map_eq_some_iff.mpr ⟨ip, hip, rfl⟩⟩, rfl⟩

/-- From the host to the check: a source is accepted exactly if the host has an interface of
that name, whose addresses can be read, that is up as far as the service looks, and the source is
one of its addresses and no group or unspecified address. -/
theorem validateSource_discovered {env : Execution.Env} {lower : Char → Char}
    {hosts : List HostInterface} (hnames : (hosts.map HostInterface.name).Nodup)
    (interfaceName sourceIP : String) :
    validateSource { env with net := goNet }
        ((normalized (hosts.filterMap (discovered lower))).map NetworkInterface.view)
        interfaceName sourceIP = none ↔
      trimmed interfaceName ≠ "" ∧ ∃ ip, Address.parseIP sourceIP.toList = some ip ∧
        isUnspecified ip = false ∧ isMulticast ip = false ∧
          ∃ iface ∈ hosts, iface.name = interfaceName ∧ Usable iface ∧
            ∃ addrs, iface.addrs = some addrs ∧ ∃ raw ∈ addrs, hostIP raw = some ip := by
  rw [validateSource_none_iff]
  refine and_congr_right fun _ ↦ exists_congr fun ip ↦ and_congr_right fun _ ↦ ?_
  constructor
  · rintro ⟨⟨item, hitem, hup, haddress⟩, hunspecified, hmulticast⟩
    obtain ⟨iface, hiface, hname, found, hfound, rfl⟩ := (find?_snapshot hnames).mp hitem
    refine ⟨hunspecified, hmulticast, iface, hiface, hname, ?_⟩
    have hlisted := mem_addresses_iff.mp haddress
    obtain ⟨addrs, haddrs, rfl⟩ := Option.map_eq_some_iff.mp hfound
    exact ⟨(operational_iff iface).mp hup, addrs, haddrs, mem_discovered_iff.mp hlisted⟩
  · rintro ⟨hunspecified, hmulticast, iface, hiface, hname, husable, addrs, haddrs, hraw⟩
    obtain ⟨found, hfound⟩ : ∃ found, discovered lower iface = some found :=
      ⟨_, Option.map_eq_some_iff.mpr ⟨addrs, haddrs, rfl⟩⟩
    refine ⟨⟨_, (find?_snapshot hnames).mpr ⟨iface, hiface, hname, found, hfound, rfl⟩, ?_, ?_⟩,
      hunspecified, hmulticast⟩
    all_goals
      obtain ⟨addrs', haddrs', rfl⟩ := Option.map_eq_some_iff.mp hfound
      obtain rfl := Option.some.inj (haddrs.symm.trans haddrs')
    · exact (operational_iff iface).mpr husable
    · exact mem_addresses_iff.mpr (mem_discovered_iff.mpr hraw)

/-- The zero in the name keeps the service from looking at the link. -/
def unplugged : List HostInterface :=
  [⟨"eth0", 2, 1500, "", true, false, some ["192.0.2.10/24".toList], some "down\n"⟩]

theorem validateSource_discovered_unplugged :
    validateSource ⟨goNet, "1", id⟩
      ((normalized (unplugged.filterMap (discovered Char.toLower))).map NetworkInterface.view)
      "eth0" "192.0.2.10" = none := by
  have hip : Address.parseIP "192.0.2.10".toList = some 0xFFFFC000020A := by decide
  have hraw : hostIP "192.0.2.10/24".toList = some 0xFFFFC000020A := by decide
  have hzero : ∃ c ∈ "eth0".toList, c ∈ unreadable := ⟨'0', by decide, by decide⟩
  refine (@validateSource_discovered ⟨goNet, "1", id⟩ _ _ (by decide) _ _).mpr
    ⟨by decide, _, hip, by decide, by decide, _, List.mem_singleton_self _, rfl,
      ⟨rfl, .inl hzero⟩, _, rfl, _, List.mem_singleton_self _, hraw⟩

end MultiSpeed.Network.Discovery
