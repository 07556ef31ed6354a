import Ads.PtpTools.Links

/-!
# ADD is undone by DEL

From every point at which ADD stops, later DELs delete no link that ADD did not create, and the
journal stays until both ends of the pair are gone (`attachment_safe`). What carries this is
`Site.Safe`: every link is foreign or an end of the pair of the journal, and without a journal there
is no such pair. A veth with the group of the marker of this attachment is not foreign, since every
other attachment has a marker with another group.
-/

set_option autoImplicit false
set_option relaxedAutoImplicit false

namespace Ads.PtpTools.Attachment

open Python Foundation Foundation.StateExcept Foundation.Interrupted Foundation.Interrupted.Program
  Foundation.Disturbed

variable {sha256 : Sha256} {request : Request} {attachments : Set Text}

/-! ### Foreign links -/

/-- A marker of this attachment. -/
def IsMarker (sha256 : Sha256) (request : Request) (marker : Text) : Prop :=
  ∃ binding, Accepts request binding ∧ aliasOf sha256 request binding = marker

/-- A veth of another attachment has the group of its marker, and any other veth the group of none.
Links of other kinds are as they please. -/
def Link.IsForeign (sha256 : Sha256) (request : Request) (attachments : Set Text) (link : Link) :
    Prop :=
  link.kind = some "veth".toList →
    (∃ other ∈ attachments, ¬ IsMarker sha256 request other ∧
      link.group = linkGroup sha256 other) ∨
    ∀ other ∈ attachments, link.group ≠ linkGroup sha256 other

/-- Others create foreign links only. -/
def Disturbance.IsForeign (sha256 : Sha256) (request : Request) (attachments : Set Text) :
    Disturbance → Prop
  | .join _ link => link.IsForeign sha256 request attachments
  | _ => True

/-- Before an operation others create foreign links only. -/
def IsForeignMoment (sha256 : Sha256) (request : Request) (attachments : Set Text)
    (moment : Moment Disturbance Raised) : Prop :=
  ∀ disturbance ∈ moment.changes, disturbance.IsForeign sha256 request attachments

/-- The markers of this attachment are among those of all attachments, and different markers have
different groups. -/
structure DistinctGroups (sha256 : Sha256) (request : Request) (attachments : Set Text) : Prop where
  own : ∀ marker, IsMarker sha256 request marker → marker ∈ attachments
  injOn : Set.InjOn (linkGroup sha256) attachments

/-- A link that passes for an end of this attachment is not foreign. -/
theorem not_isForeign_of_checkLink (hgroups : DistinctGroups sha256 request attachments)
    {link : Link} {marker : Text} {index : Option ℕ} {incomplete : Bool} {done : Unit}
    (hmarker : IsMarker sha256 request marker)
    (hcheck : checkLink sha256 link marker index incomplete = .ok done) :
    ¬ link.IsForeign sha256 request attachments := by
  simp only [checkLink, failIf_eq_ok, not_or, ne_eq, not_not] at hcheck
  obtain ⟨-, hkind, hgroup, -⟩ := hcheck
  intro hforeign
  rcases hforeign hkind with ⟨other, hother, hmarked, hsame⟩ | hnone
  · have heq : other = marker :=
      hgroups.injOn hother (hgroups.own marker hmarker) (hsame.symm.trans hgroup)
    exact hmarked (heq ▸ hmarker)
  · exact hnone marker (hgroups.own marker hmarker) hgroup

/-! ### The invariant -/

/-- What a link of the pair of a journal carries. -/
structure Tagged (sha256 : Sha256) (saved : ActiveRecord) (side : Side) (link : Link) : Prop where
  ifname : link.ifname = saved.endName side
  kind : link.kind = some "veth".toList
  group : link.group = linkGroup sha256 saved.marker
  ifalias : link.ifalias = some saved.marker ∨ saved.indices = none ∧ link.ifalias = none
  index : ∀ index ∈ saved.index side, index = link.ifindex

namespace Site

/-- There is no link that ADD created. -/
def Absent (site : Site) : Prop :=
  ∀ side link, site.Has side link → link.device ∉ site.created

/-- The links that ADD created are the two ends of one pair. -/
structure Attached (sha256 : Sha256) (saved : ActiveRecord) (device : ℕ) (site : Site) : Prop where
  created : device ∈ site.created
  ends : ∀ side, ∃ link, site.Has side link ∧ link.device = device
  own : ∀ side link, site.Has side link → link.device ∈ site.created →
    link.device = device ∧ Tagged sha256 saved side link

/-- Every link is foreign or an end of the pair of the journal. -/
structure Safe (sha256 : Sha256) (request : Request) (attachments : Set Text) (site : Site) : Prop
    where
  next : ∀ side link, site.Has side link → link.device < site.nextDevice
  createdNext : ∀ device ∈ site.created, device < site.nextDevice
  foreign : ∀ side link, site.Has side link → link.device ∉ site.created →
    link.IsForeign sha256 request attachments
  deleted : ∀ device ∈ site.deleted, device ∈ site.created
  marker : ∀ saved, site.journal = some saved → IsMarker sha256 request saved.marker
  pair : site.Absent ∨ ∃ saved device, site.journal = some saved ∧ site.Attached sha256 saved device

end Site

/-! ### Links after a change -/

variable {site joined : Site} {side other : Side} {link new : Link} {gone : ℕ → Bool}

@[simp] theorem has_without :
    (site.without gone).Has side link ↔ site.Has side link ∧ gone link.device = false := by
  unfold Site.Has Site.without
  simp only [Option.map_eq_some_iff]
  constructor
  · rintro ⟨_, ⟨space, hspace, rfl⟩, hlink⟩
    have hkept := Table.mem_filter.mp hlink
    exact ⟨⟨space, hspace, hkept.1⟩, by simpa using hkept.2⟩
  · rintro ⟨⟨space, hspace, hlink⟩, hgone⟩
    exact ⟨_, ⟨space, hspace, rfl⟩, Table.mem_filter.mpr ⟨hlink, by simp [hgone]⟩⟩

/-- The links after the namespace of a side is another one. -/
theorem has_update {place : Side} {space : Option Namespace} :
    Site.Has { site with namespaces := Function.update site.namespaces place space } side link ↔
      (side = place ∧ ∃ found, space = some found ∧ link ∈ found.links) ∨
        (side ≠ place ∧ site.Has side link) := by
  unfold Site.Has
  by_cases hside : side = place
  · subst hside
    simp
  · simp [hside]

/-- What a site with one more link is. -/
theorem addLink_eq_some (hadd : site.addLink side new = some joined) :
    joined = { site with namespaces := joined.namespaces } ∧
      (∀ place found, joined.Has place found ↔
        site.Has place found ∨ (place = side ∧ found = new)) := by
  unfold Site.addLink at hadd
  obtain ⟨space, hspace, hadd⟩ := Option.bind_eq_some_iff.mp hadd
  obtain ⟨table, hinsert, rfl⟩ := Option.map_eq_some_iff.mp hadd
  refine ⟨rfl, fun place found ↦ ?_⟩
  unfold Site.Has
  by_cases hplace : place = side
  · subst hplace
    simp [hspace, (Table.mem_insert hinsert).1, or_comm]
  · simp [hplace]

/-! ### What others leave alone -/

variable {disturbance : Disturbance} {saved : ActiveRecord} {device : ℕ}

/-- What others do not change. -/
theorem disturb_frame (site : Site) (disturbance : Disturbance) :
    (site.disturb disturbance).held = site.held ∧ (site.disturb disturbance).journal = site.journal ∧
      (site.disturb disturbance).created = site.created ∧
        (site.disturb disturbance).deleted = site.deleted ∧
          site.nextDevice ≤ (site.disturb disturbance).nextDevice := by
  unfold Site.disturb
  cases disturbance with
  | vanish side =>
    dsimp only
    split <;> simp [Site.without]
  | appear side identity =>
    dsimp only
    split <;> simp
  | join side link =>
    dsimp only
    split_ifs
    · simp
    · split
      · simp
      · rename_i joined hadd
        rw [(addLink_eq_some hadd).1]
        simp
  | leave device =>
    dsimp only
    split_ifs <;> simp [Site.without]
  | number indices => simp

/-- A link that others bring is theirs. -/
theorem of_has_disturb (hhas : (site.disturb disturbance).Has side link) :
    site.Has side link ∨ (disturbance = .join side link ∧ link.device ∉ site.created ∧
      link.device < (site.disturb disturbance).nextDevice) := by
  unfold Site.disturb at hhas ⊢
  cases disturbance with
  | vanish place =>
    dsimp only at hhas
    split at hhas
    · rcases has_update.mp hhas with ⟨-, found, hnone, -⟩ | ⟨-, hkept⟩
      · cases hnone
      · exact Or.inl (has_without.mp hkept).1
    · exact Or.inl hhas
  | appear place identity =>
    dsimp only at hhas
    split at hhas
    · exact Or.inl hhas
    · rcases has_update.mp hhas with ⟨-, found, hfound, hlink⟩ | ⟨-, hkept⟩
      · obtain rfl := Option.some.inj hfound
        exact absurd hlink Table.not_mem_empty
      · exact Or.inl hkept
  | join place new =>
    dsimp only at hhas ⊢
    split_ifs at hhas ⊢ with hcreated
    · exact Or.inl hhas
    · split at hhas
      · exact Or.inl hhas
      · rename_i joined hadd
        rcases ((addLink_eq_some hadd).2 side link).mp hhas with hold | ⟨rfl, rfl⟩
        · exact Or.inl hold
        · exact Or.inr ⟨rfl, hcreated, by simp⟩
  | leave gone =>
    dsimp only at hhas
    split_ifs at hhas
    · exact Or.inl hhas
    · exact Or.inl (has_without.mp hhas).1
  | number indices => exact Or.inl hhas

/-- The links that ADD created stay, unless a namespace is gone. -/
theorem has_disturb_of_own (hkept : ∀ place, disturbance = .vanish place → site.held place = true)
    (hown : link.device ∈ site.created) (hhas : site.Has side link) :
    (site.disturb disturbance).Has side link := by
  unfold Site.disturb
  cases disturbance with
  | vanish place =>
    dsimp only
    rw [hkept place rfl]
    exact hhas
  | appear place identity =>
    dsimp only
    split
    · exact hhas
    · rename_i hnone
      obtain ⟨space, hspace, hlink⟩ := hhas
      have hplace : side ≠ place := fun heq ↦ by
        rw [heq, hnone] at hspace
        exact Option.some_ne_none _ hspace.symm
      exact has_update.mpr (Or.inr ⟨hplace, space, hspace, hlink⟩)
  | join place new =>
    dsimp only
    split_ifs
    · exact hhas
    · split
      · exact hhas
      · rename_i joined hadd
        exact ((addLink_eq_some hadd).2 side link).mpr (Or.inl hhas)
  | leave gone =>
    dsimp only
    split_ifs with hcreated
    · exact hhas
    · refine has_without.mpr ⟨hhas, ?_⟩
      simpa using fun heq : link.device = gone ↦ hcreated (heq ▸ hown)
  | number indices => exact hhas

/-- A namespace that is gone took the devices of its links. -/
theorem not_has_disturb_vanish (hheld : site.held other = false) (hhas : site.Has other new) :
    ¬ ((site.disturb (.vanish other)).Has side link ∧ link.device = new.device) := by
  obtain ⟨space, hspace, hnew⟩ := hhas
  unfold Site.disturb
  simp only [hheld, hspace]
  rintro ⟨hhas, hdevice⟩
  rcases has_update.mp hhas with ⟨-, found, hnone, -⟩ | ⟨-, hkept⟩
  · cases hnone
  · have hgone := (has_without.mp hkept).2
    rw [List.any_eq_false] at hgone
    exact hgone new hnew (by simp [hdevice])

/-- What is gone stays so. -/
theorem Site.Absent.disturb (habsent : site.Absent) : (site.disturb disturbance).Absent := by
  intro side link hhas
  rw [(disturb_frame _ _).2.2.1]
  rcases of_has_disturb hhas with hold | ⟨-, hnew, -⟩
  · exact habsent side link hold
  · exact hnew

/-- A pair stays, unless a namespace is gone. -/
theorem Site.Attached.disturb
    (hkept : ∀ place, disturbance = .vanish place → site.held place = true)
    (hattached : site.Attached sha256 saved device) :
    (site.disturb disturbance).Attached sha256 saved device := by
  have hcreated := (disturb_frame site disturbance).2.2.1
  refine ⟨hcreated ▸ hattached.created, fun side ↦ ?_, fun side link hhas hown ↦ ?_⟩
  · obtain ⟨link, hhas, hdevice⟩ := hattached.ends side
    exact ⟨link, has_disturb_of_own hkept (hdevice ▸ hattached.created) hhas, hdevice⟩
  · rw [hcreated] at hown
    rcases of_has_disturb hhas with hold | ⟨-, hnew, -⟩
    · exact hattached.own side link hold hown
    · exact absurd hown hnew

/-- A pair stays or is gone. -/
theorem Site.Attached.disturb_or (disturbance : Disturbance)
    (hattached : site.Attached sha256 saved device) :
    (site.disturb disturbance).Absent ∨
      (site.disturb disturbance).Attached sha256 saved device := by
  by_cases hkept : ∀ place, disturbance = .vanish place → site.held place = true
  · exact Or.inr (hattached.disturb hkept)
  · simp only [not_forall, Bool.not_eq_true] at hkept
    obtain ⟨place, rfl, hheld⟩ := hkept
    obtain ⟨new, hnew, hdevice⟩ := hattached.ends place
    refine Or.inl fun side link hhas hown ↦ ?_
    rw [(disturb_frame _ _).2.2.1] at hown
    rcases of_has_disturb hhas with hold | ⟨-, hforeign, -⟩
    · have hsame := (hattached.own side link hold hown).1
      exact not_has_disturb_vanish hheld hnew ⟨hhas, hsame.trans hdevice.symm⟩
    · exact hforeign hown

/-- Others keep the invariant. -/
theorem Site.Safe.disturb (hsafe : site.Safe sha256 request attachments)
    (hforeign : disturbance.IsForeign sha256 request attachments) :
    (site.disturb disturbance).Safe sha256 request attachments := by
  obtain ⟨-, hjournal, hcreated, hdeleted, hnext⟩ :=
    disturb_frame site disturbance
  refine ⟨fun side link hhas ↦ ?_, fun device hdevice ↦ ?_, fun side link hhas hown ↦ ?_, ?_, ?_, ?_⟩
  · rcases of_has_disturb hhas with hold | ⟨-, -, hnew⟩
    · exact (hsafe.next side link hold).trans_le hnext
    · exact hnew
  · rw [hcreated] at hdevice
    exact (hsafe.createdNext device hdevice).trans_le hnext
  · rw [hcreated] at hown
    rcases of_has_disturb hhas with hold | ⟨rfl, -, -⟩
    · exact hsafe.foreign side link hold hown
    · exact hforeign
  · rw [hcreated, hdeleted]
    exact hsafe.deleted
  · rw [hjournal]
    exact hsafe.marker
  · rw [hjournal]
    rcases hsafe.pair with habsent | ⟨saved, device, hsaved, hattached⟩
    · exact Or.inl habsent.disturb
    · rcases hattached.disturb_or disturbance with habsent | hkept
      · exact Or.inl habsent
      · exact Or.inr ⟨saved, device, hsaved, hkept⟩

/-! ### Operations -/

/-- An assertion that others keep and that includes the invariant. -/
structure Steady (sha256 : Sha256) (request : Request) (attachments : Set Text)
    (holds : Site → Prop) : Prop where
  disturb : ∀ site disturbance, disturbance.IsForeign sha256 request attachments → holds site →
    holds (site.disturb disturbance)
  safe : ∀ site, holds site → site.Safe sha256 request attachments

/-- What a script guarantees amid foreign links. -/
abbrev Assures (sha256 : Sha256) (request : Request) (attachments : Set Text)
    {α : Type} (before : Site → Prop) (script : Script α) (post : α → Site → Prop)
    (stopped : Site → Prop) : Prop :=
  Relies (IsForeignMoment sha256 request attachments) before script post stopped

section Operations

variable {holds : Site → Prop} {name : Text}

/-- One operation from a steady assertion. -/
theorem assures_act {α : Type} {effect : Effect α} {post : α → Site → Prop} {stopped : Site → Prop}
    (hsteady : Steady sha256 request attachments holds) (hstopped : ∀ site, holds site → stopped site)
    (heffect : ∀ site value next, holds site → effect site = .ok (value, next) →
      post value next ∧ stopped next) :
    Assures sha256 request attachments holds (act effect) post stopped :=
  Relies.operate (stable_of_change _ (fun _ hmoment ↦ hmoment) hsteady.disturb) hstopped heffect

variable (hsteady : Steady sha256 request attachments holds)

include hsteady

theorem assures_examine : Assures sha256 request attachments holds examine (fun _ ↦ holds)
    (Site.Safe sha256 request attachments) := by
  refine assures_act hsteady hsteady.safe fun site value next hholds hrun ↦ ?_
  obtain ⟨-, rfl⟩ := pure_eq_ok.mp hrun
  exact ⟨hholds, hsteady.safe _ hholds⟩

theorem assures_readJournal : Assures sha256 request attachments holds readJournal
    (fun journal site ↦ holds site ∧ site.journal = journal)
    (Site.Safe sha256 request attachments) := by
  refine assures_act hsteady hsteady.safe fun site value next hholds hrun ↦ ?_
  simp only [bind_eq_ok, get_eq_ok, pure_eq_ok] at hrun
  obtain ⟨_, _, ⟨rfl, rfl⟩, rfl, rfl⟩ := hrun
  exact ⟨⟨hholds, rfl⟩, hsteady.safe _ hholds⟩

theorem assures_links : Assures sha256 request attachments holds (links side)
    (fun table site ↦ holds site ∧ ∃ space, site.namespaces side = some space ∧ space.links = table)
    (Site.Safe sha256 request attachments) := by
  refine assures_act hsteady hsteady.safe fun site value next hholds hrun ↦ ?_
  obtain ⟨_, _, hget, hrun⟩ := bind_eq_ok.mp hrun
  obtain ⟨rfl, rfl⟩ := get_eq_ok.mp hget
  cases hspace : site.namespaces side with
  | none => simp [hspace] at hrun
  | some space =>
    simp only [hspace, pure_eq_ok] at hrun
    obtain ⟨rfl, rfl⟩ := hrun
    exact ⟨⟨hholds, space, hspace, rfl⟩, hsteady.safe _ hholds⟩

theorem assures_findLink : Assures sha256 request attachments holds (findLink side name)
    (fun found site ↦ holds site ∧
      ∃ space, site.namespaces side = some space ∧ space.links.find name = found)
    (Site.Safe sha256 request attachments) := by
  refine (assures_links hsteady).bind fun table ↦ Relies.pure ?_
  rintro site ⟨hholds, space, hspace, rfl⟩
  exact ⟨hholds, space, hspace, rfl⟩

theorem assures_lookupLink : Assures sha256 request attachments holds (lookupLink side name)
    (fun link site ↦ holds site ∧ site.Has side link ∧ link.ifname = name)
    (Site.Safe sha256 request attachments) := by
  refine (assures_findLink hsteady).bind fun found ↦ ?_
  cases found with
  | none => exact Relies.throw fun site hsite ↦ hsteady.safe site hsite.1
  | some link =>
    refine Relies.pure ?_
    rintro site ⟨hholds, space, hspace, hfind⟩
    obtain ⟨hlink, hname⟩ := Table.find_eq_some_iff.mp hfind
    exact ⟨hholds, ⟨space, hspace, hlink⟩, hname⟩

/-- A namespace is held once it is open. -/
theorem assures_openNamespace {expected : Option Identity} {missing : Bool}
    (hheld : ∀ site, holds site → holds { site with held := Function.update site.held side true }) :
    Assures sha256 request attachments holds (openNamespace side expected missing)
      (fun opened site ↦ holds site ∧ (opened = true → site.held side = true) ∧
        (opened = false → site.namespaces side = none ∧ missing = true))
      (Site.Safe sha256 request attachments) := by
  refine assures_act hsteady hsteady.safe fun site value next hholds hrun ↦ ?_
  obtain ⟨_, _, hget, hrun⟩ := bind_eq_ok.mp hrun
  obtain ⟨rfl, rfl⟩ := get_eq_ok.mp hget
  cases hspace : site.namespaces side with
  | none =>
    simp only [hspace, bind_eq_ok, raiseIf_eq_ok, pure_eq_ok] at hrun
    obtain ⟨_, _, ⟨hmissing, rfl⟩, rfl, rfl⟩ := hrun
    exact ⟨⟨hholds, by simp, fun _ ↦ ⟨hspace, by simpa using hmissing⟩⟩, hsteady.safe _ hholds⟩
  | some space =>
    simp only [hspace, bind_eq_ok, raiseIf_eq_ok, set_eq_ok, pure_eq_ok] at hrun
    obtain ⟨_, _, ⟨-, rfl⟩, _, _, rfl, rfl, rfl⟩ := hrun
    have hnext := hheld site hholds
    exact ⟨⟨hnext, by simp, by simp⟩, hsteady.safe _ hnext⟩

end Operations

/-! ### DEL -/

/-- The pair of a journal is there, and both its namespaces are held. -/
structure Site.Grasped (sha256 : Sha256) (saved : ActiveRecord) (site : Site) : Prop where
  vm : site.held .vm = true
  peer : site.held .peer = true
  attached : ∃ device, site.Attached sha256 saved device

/-- With the journal in place, the pair is gone and one thing is known, or it is held and another
thing is known. -/
structure Phase (sha256 : Sha256) (request : Request) (attachments : Set Text)
    (saved : ActiveRecord) (absent present : Prop) (site : Site) : Prop where
  safe : site.Safe sha256 request attachments
  journal : site.journal = some saved
  cases : (site.Absent ∧ absent) ∨ (present ∧ site.Grasped sha256 saved)

/-- A pair that is held stays. -/
theorem Site.Grasped.disturb (hgrasped : site.Grasped sha256 saved) :
    (site.disturb disturbance).Grasped sha256 saved := by
  have hheld := (disturb_frame site disturbance).1
  obtain ⟨device, hattached⟩ := hgrasped.attached
  refine ⟨hheld ▸ hgrasped.vm, hheld ▸ hgrasped.peer, device, hattached.disturb ?_⟩
  rintro place -
  cases place with
  | vm => exact hgrasped.vm
  | peer => exact hgrasped.peer

section Phases

variable {absent present known : Prop}

theorem Phase.steady :
    Steady sha256 request attachments (Phase sha256 request attachments saved absent present) := by
  refine ⟨fun site disturbance hforeign hphase ↦ ⟨hphase.safe.disturb hforeign, ?_, ?_⟩,
    fun _ hphase ↦ hphase.safe⟩
  · exact (disturb_frame _ disturbance).2.1.trans hphase.journal
  · exact hphase.cases.imp (fun h ↦ ⟨h.1.disturb, h.2⟩) fun h ↦ ⟨h.1, h.2.disturb⟩

/-- An end that was created under this name is found. -/
theorem Site.Grasped.find_isSome (hgrasped : site.Grasped sha256 saved) {space : Namespace}
    (hspace : site.namespaces side = some space) :
    (space.links.find (saved.endName side)).isSome = true := by
  obtain ⟨device, hattached⟩ := hgrasped.attached
  obtain ⟨link, hhas, hdevice⟩ := hattached.ends side
  obtain ⟨found, hfound, hlink⟩ := id hhas
  obtain rfl : space = found := Option.some.inj (hspace.symm.trans hfound)
  have htagged := (hattached.own side link hhas (hdevice ▸ hattached.created)).2
  rw [← htagged.ifname, Table.find_key hlink]
  rfl

/-- A candidate is an end of the pair. -/
theorem assures_candidate (hgroups : DistinctGroups sha256 request attachments) {opened : Bool} :
    Assures sha256 request attachments
      (Phase sha256 request attachments saved absent (opened = true ∧ present))
      (candidate sha256 saved side opened)
      (fun found ↦ Phase sha256 request attachments saved (absent ∧ found = none)
        (present ∧ found = some (side, saved.endName side)))
      (Site.Safe sha256 request attachments) := by
  unfold candidate
  cases opened with
  | false =>
    refine Relies.pure fun site hphase ↦ ⟨hphase.safe, hphase.journal, ?_⟩
    exact hphase.cases.imp (fun h ↦ ⟨h.1, h.2, rfl⟩) fun h ↦ absurd h.1.1 Bool.false_ne_true
  | true =>
    refine (assures_findLink Phase.steady).bind fun found ↦ ?_
    cases found with
    | none =>
      refine Relies.pure ?_
      rintro site ⟨hphase, space, hspace, hfind⟩
      refine ⟨hphase.safe, hphase.journal, hphase.cases.imp (fun h ↦ ⟨h.1, h.2, rfl⟩) fun h ↦ ?_⟩
      have hfound := h.2.find_isSome hspace
      simp [hfind] at hfound
    | some link =>
      refine Relies.bindAt (fun _ site ↦
        Phase sha256 request attachments saved absent (True ∧ present) site ∧
          ¬ link.IsForeign sha256 request attachments ∧ site.Has side link)
        (Relies.evaluate ?_ fun _ site _ hsite ↦ hsite.1.safe) fun _ ↦ Relies.pure ?_
      · rintro _ site hcheck ⟨hphase, space, hspace, hfind⟩
        have hlink := (Table.find_eq_some_iff.mp hfind).1
        refine ⟨⟨hphase.safe, hphase.journal, ?_⟩, ?_, space, hspace, hlink⟩
        · exact hphase.cases.imp id fun h ↦ ⟨⟨trivial, h.1.2⟩, h.2⟩
        · exact not_isForeign_of_checkLink hgroups (hphase.safe.marker saved hphase.journal) hcheck
      · rintro site ⟨hphase, hforeign, hhas⟩
        refine ⟨hphase.safe, hphase.journal, Or.inr ?_⟩
        rcases hphase.cases with ⟨hgone, -⟩ | ⟨hpresent, hgrasped⟩
        · exact absurd (hphase.safe.foreign side link hhas (hgone side link hhas)) hforeign
        · exact ⟨⟨hpresent.2, rfl⟩, hgrasped⟩

/-- The site after a device is deleted. -/
def Site.afterDelete (site : Site) (device : ℕ) : Site :=
  { site.without (· = device) with deleted := device :: site.deleted }

theorem has_afterDelete :
    (site.afterDelete device).Has side link ↔ site.Has side link ∧ link.device ≠ device := by
  have hwithout : (site.afterDelete device).Has side link ↔
      (site.without (· = device)).Has side link := Iff.rfl
  rw [hwithout, has_without]
  simp

/-- After the pair is deleted it is gone. -/
theorem Site.Attached.absent_afterDelete (hattached : site.Attached sha256 saved device) :
    (site.afterDelete device).Absent := by
  intro side link hhas hown
  obtain ⟨hold, hkept⟩ := has_afterDelete.mp hhas
  exact hkept (hattached.own side link hold hown).1

/-- Deleting the pair keeps the invariant. -/
theorem Site.Safe.afterDelete (hsafe : site.Safe sha256 request attachments)
    (hattached : site.Attached sha256 saved device) :
    (site.afterDelete device).Safe sha256 request attachments := by
  refine ⟨fun side link hhas ↦ hsafe.next side link (has_afterDelete.mp hhas).1, hsafe.createdNext,
    fun side link hhas hown ↦ hsafe.foreign side link (has_afterDelete.mp hhas).1 hown, ?_,
    hsafe.marker, Or.inl hattached.absent_afterDelete⟩
  intro gone hgone
  rcases List.mem_cons.mp hgone with rfl | hdeleted
  · exact hattached.created
  · exact hsafe.deleted gone hdeleted

/-- Deleting an end of the pair by its name deletes the pair. -/
theorem assures_deleteLink :
    Assures sha256 request attachments (Phase sha256 request attachments saved False True)
      (deleteLink side (saved.endName side))
      (fun _ ↦ Phase sha256 request attachments saved True False)
      (Phase sha256 request attachments saved True True) := by
  refine assures_act Phase.steady
    (fun site hphase ↦ ⟨hphase.safe, hphase.journal, hphase.cases.imp (fun h ↦ h.2.elim) id⟩)
    fun site value next hphase hrun ↦ ?_
  have hgrasped : site.Grasped sha256 saved := (hphase.cases.resolve_left fun h ↦ h.2).2
  obtain ⟨_, _, hget, hrun⟩ := bind_eq_ok.mp hrun
  obtain ⟨rfl, rfl⟩ := get_eq_ok.mp hget
  cases hfind : (site.namespaces side).bind fun space ↦ space.links.find (saved.endName side) with
  | none => simp [hfind] at hrun
  | some link =>
    simp only [hfind, set_eq_ok] at hrun
    obtain rfl := hrun
    obtain ⟨space, hspace, hlink⟩ := Option.bind_eq_some_iff.mp hfind
    obtain ⟨hmem, hname⟩ := Table.find_eq_some_iff.mp hlink
    obtain ⟨device, hattached⟩ := hgrasped.attached
    obtain ⟨own, ⟨found, hfound, hown⟩, hdevice⟩ := hattached.ends side
    obtain rfl : space = found := Option.some.inj (hspace.symm.trans hfound)
    have htagged := (hattached.own side own ⟨space, hspace, hown⟩ (hdevice ▸ hattached.created)).2
    obtain rfl : link = own := Table.eq_of_key_eq hmem hown (hname.trans htagged.ifname.symm)
    rw [← hdevice] at hattached
    have hgone : Phase sha256 request attachments saved True False (site.afterDelete link.device) :=
      ⟨hphase.safe.afterDelete hattached, hphase.journal, Or.inl ⟨hattached.absent_afterDelete, trivial⟩⟩
    exact ⟨hgone, hgone.safe, hgone.journal, hgone.cases.imp id fun h ↦ h.1.elim⟩

/-- After the first candidate is deleted the pair is gone. -/
theorem assures_deleteFirst {candidates : List (Side × Text)} :
    Assures sha256 request attachments
      (Phase sha256 request attachments saved (candidates = [])
        (∃ side rest, candidates = (side, saved.endName side) :: rest))
      (deleteFirst candidates) (fun _ ↦ Phase sha256 request attachments saved True False)
      (Site.Safe sha256 request attachments) := by
  cases candidates with
  | nil =>
    refine Relies.pure fun site hphase ↦ ⟨hphase.safe, hphase.journal, ?_⟩
    refine hphase.cases.imp (fun h ↦ ⟨h.1, trivial⟩) fun h ↦ ?_
    obtain ⟨side, rest, hsplit⟩ := h.1
    cases hsplit
  | cons first rest =>
    obtain ⟨side, name⟩ := first
    by_cases hname : name = saved.endName side
    · subst hname
      refine Relies.tryCatch (Phase sha256 request attachments saved True True)
        (assures_deleteLink.mono (fun site hphase ↦ ⟨hphase.safe, hphase.journal, ?_⟩)
          (fun _ _ h ↦ h) fun _ h ↦ h) fun failure ↦ ?_
      · exact hphase.cases.imp (fun h ↦ absurd h.2 (List.cons_ne_nil _ _)) fun h ↦ ⟨trivial, h.2⟩
      · cases failure with
        | runtimeError reason =>
          refine (assures_findLink Phase.steady).bind fun found ↦ ?_
          cases found with
          | some link => exact Relies.throw fun site hsite ↦ hsite.1.safe
          | none =>
            refine Relies.pure ?_
            rintro site ⟨hphase, space, hspace, hfind⟩
            refine ⟨hphase.safe, hphase.journal, hphase.cases.imp id fun h ↦ ?_⟩
            have hfound := h.2.find_isSome hspace
            simp [hfind] at hfound
        | valueError reason => exact Relies.throw fun site hphase ↦ hphase.safe
        | refused failure => exact Relies.throw fun site hphase ↦ hphase.safe
        | keyError => exact Relies.throw fun site hphase ↦ hphase.safe
        | system => exact Relies.throw fun site hphase ↦ hphase.safe
        | killed => exact Relies.throw fun site hphase ↦ hphase.safe
    · intro amid hamid
      rcases hamid.state.cases with ⟨-, hnil⟩ | ⟨⟨other, others, hsplit⟩, -⟩
      · cases hnil
      · cases hsplit
        exact absurd rfl hname

/-- That no candidate remains changes nothing. -/
theorem assures_confirmAbsent {holds : Site → Prop} {candidates : List (Side × Text)}
    (hsteady : Steady sha256 request attachments holds) :
    Assures sha256 request attachments holds (confirmAbsent candidates) (fun _ ↦ holds)
      (Site.Safe sha256 request attachments) := by
  refine Relies.forM fun item ↦ (assures_findLink hsteady).bind fun found ↦ ?_
  cases found with
  | some link => exact Relies.throw fun site hsite ↦ hsteady.safe site hsite.1
  | none => exact Relies.pure fun site hsite ↦ hsite.1

end Phases

/-- The pair is gone, and so is the journal. -/
structure Undone (sha256 : Sha256) (request : Request) (attachments : Set Text) (site : Site) : Prop
    where
  safe : site.Safe sha256 request attachments
  absent : site.Absent
  journal : site.journal = none

theorem Undone.steady :
    Steady sha256 request attachments (Undone sha256 request attachments) := by
  refine ⟨fun site disturbance hforeign hundone ↦ ⟨hundone.safe.disturb hforeign,
    hundone.absent.disturb, ?_⟩, fun _ hundone ↦ hundone.safe⟩
  exact (disturb_frame _ disturbance).2.1.trans hundone.journal

/-- The journal is unlinked when the pair is gone. -/
theorem assures_unlinkJournal :
    Assures sha256 request attachments (Phase sha256 request attachments saved True False)
      unlinkJournal (fun _ ↦ Undone sha256 request attachments)
      (Site.Safe sha256 request attachments) := by
  refine assures_act Phase.steady (fun _ hphase ↦ hphase.safe) fun site value next hphase hrun ↦ ?_
  simp only [bind_eq_ok, get_eq_ok, raiseIf_eq_ok, set_eq_ok] at hrun
  obtain ⟨_, _, ⟨rfl, rfl⟩, _, _, ⟨-, rfl⟩, rfl⟩ := hrun
  have habsent : site.Absent := (hphase.cases.resolve_right fun h ↦ h.1).1
  have hsafe : Site.Safe sha256 request attachments { site with journal := none } :=
    ⟨hphase.safe.next, hphase.safe.createdNext, hphase.safe.foreign, hphase.safe.deleted,
      fun _ hsaved ↦ absurd hsaved.symm (Option.some_ne_none _), Or.inl habsent⟩
  exact ⟨⟨hsafe, habsent, rfl⟩, hsafe⟩

/-- What is known while `delete` opens the namespaces. -/
structure Opening (sha256 : Sha256) (request : Request) (attachments : Set Text)
    (saved : ActiveRecord) (sides : List Side) (known : Prop) (site : Site) : Prop where
  safe : site.Safe sha256 request attachments
  journal : site.journal = some saved
  held : site.Absent ∨ (known ∧ ∀ side ∈ sides, site.held side = true)

section Openings

variable {sides : List Side} {known : Prop}

theorem Opening.steady :
    Steady sha256 request attachments (Opening sha256 request attachments saved sides known) := by
  have hframe := disturb_frame
  refine ⟨fun site disturbance hforeign hopening ↦ ⟨hopening.safe.disturb hforeign,
    (hframe site disturbance).2.1.trans hopening.journal, ?_⟩, fun _ hopening ↦ hopening.safe⟩
  rw [(hframe site disturbance).1]
  exact hopening.held.imp Site.Absent.disturb id

/-- The invariant is not about what is held. -/
theorem Site.Safe.of_held {held : Side → Bool} (hsafe : site.Safe sha256 request attachments) :
    Site.Safe sha256 request attachments { site with held := held } := by
  refine ⟨hsafe.next, hsafe.createdNext, hsafe.foreign, hsafe.deleted, hsafe.marker, ?_⟩
  refine hsafe.pair.imp id ?_
  rintro ⟨saved, device, hsaved, hattached⟩
  exact ⟨saved, device, hsaved, hattached.created, hattached.ends, hattached.own⟩

/-- A namespace that does not open has no links. -/
theorem assures_opening {expected : Option Identity} :
    Assures sha256 request attachments (Opening sha256 request attachments saved sides known)
      (openNamespace side expected true)
      (fun opened ↦ Opening sha256 request attachments saved (side :: sides)
        (known ∧ opened = true)) (Site.Safe sha256 request attachments) := by
  refine (assures_openNamespace Opening.steady fun site hopening ↦
    ⟨hopening.safe.of_held, hopening.journal, ?_⟩).mono (fun _ h ↦ h) ?_ fun _ h ↦ h
  · refine hopening.held.imp id fun hheld ↦ ⟨hheld.1, fun place hplace ↦ ?_⟩
    by_cases hside : place = side
    · simp [hside]
    · simpa [hside] using hheld.2 place hplace
  · rintro opened site ⟨hopening, hopened, hmissing⟩
    refine ⟨hopening.safe, hopening.journal, ?_⟩
    cases opened with
    | true =>
      exact hopening.held.imp id fun hheld ↦
        ⟨⟨hheld.1, rfl⟩, List.forall_mem_cons.mpr ⟨hopened rfl, hheld.2⟩⟩
    | false =>
      rcases hopening.safe.pair with habsent | ⟨_, device, -, hattached⟩
      · exact Or.inl habsent
      · obtain ⟨link, ⟨space, hspace, -⟩, -⟩ := hattached.ends side
        rw [(hmissing rfl).1] at hspace
        exact absurd hspace.symm (Option.some_ne_none _)

end Openings

/-- What `delete` leaves. -/
theorem assures_delete (hgroups : DistinctGroups sha256 request attachments) :
    Assures sha256 request attachments
      (fun site ↦ site.Safe sha256 request attachments ∧ site.journal = some saved)
      (delete sha256 saved) (fun _ ↦ Undone sha256 request attachments)
      (Site.Safe sha256 request attachments) := by
  refine Relies.relyingOn (Opening sha256 request attachments saved [] True) ?_
    fun site h ↦ ⟨h.1, h.2, Or.inr ⟨trivial, by simp⟩⟩
  refine assures_opening.bind fun vm ↦ assures_opening.bind fun peer ↦ ?_
  refine Relies.relyingOn (Phase sha256 request attachments saved True
    (vm = true ∧ peer = true ∧ True)) ?_ fun site hopening ↦ ?_
  · refine (assures_candidate hgroups).bind fun first ↦ ?_
    refine Relies.relyingOn (Phase sha256 request attachments saved (True ∧ first = none)
      (peer = true ∧ first = some (.vm, saved.endName .vm))) ?_
      fun site hphase ↦ ⟨hphase.safe, hphase.journal, ?_⟩
    · refine (assures_candidate hgroups).bind fun second ↦ ?_
      refine Relies.bindAt (fun _ ↦ Phase sha256 request attachments saved True False)
        (assures_deleteFirst.mono (fun site hphase ↦ ⟨hphase.safe, hphase.journal, ?_⟩)
          (fun _ _ h ↦ h) fun _ h ↦ h) fun _ ↦ ?_
      · rcases hphase.cases with ⟨habsent, ⟨-, rfl⟩, rfl⟩ | ⟨⟨rfl, rfl⟩, hgrasped⟩
        · exact Or.inl ⟨habsent, rfl⟩
        · exact Or.inr ⟨⟨.vm, _, rfl⟩, hgrasped⟩
      · exact (assures_confirmAbsent Phase.steady).bind fun _ ↦
          assures_unlinkJournal.bind fun _ ↦ assures_examine Undone.steady
    · exact hphase.cases.imp id fun h ↦ ⟨⟨h.1.1.1, h.1.2⟩, h.2⟩
  · refine ⟨hopening.safe, hopening.journal, ?_⟩
    rcases hopening.safe.pair with habsent | ⟨other, device, hother, hattached⟩
    · exact Or.inl ⟨habsent, trivial⟩
    · obtain rfl : saved = other := Option.some.inj (hopening.journal.symm.trans hother)
      refine hopening.held.imp (fun h ↦ ⟨h, trivial⟩) fun h ↦ ?_
      exact ⟨⟨h.1.1.2, h.1.2, trivial⟩, h.2 .vm (by simp), h.2 .peer (by simp), device, hattached⟩

/-! ### ADD -/

/-- What is known until the intent is written. -/
structure Preparing (sha256 : Sha256) (request : Request) (attachments : Set Text)
    (sides : List Side) (site : Site) : Prop where
  safe : site.Safe sha256 request attachments
  journal : site.journal = none
  held : ∀ side ∈ sides, site.held side = true

section Preparations

variable {sides : List Side}

theorem Preparing.steady :
    Steady sha256 request attachments (Preparing sha256 request attachments sides) := by
  have hframe := disturb_frame
  refine ⟨fun site disturbance hforeign hpreparing ↦ ⟨hpreparing.safe.disturb hforeign,
    (hframe site disturbance).2.1.trans hpreparing.journal, ?_⟩, fun _ hpreparing ↦ hpreparing.safe⟩
  rw [(hframe site disturbance).1]
  exact hpreparing.held

/-- Without a journal there is no pair. -/
theorem Preparing.absent (hpreparing : Preparing sha256 request attachments sides site) :
    site.Absent := by
  rcases hpreparing.safe.pair with habsent | ⟨saved, device, hsaved, -⟩
  · exact habsent
  · rw [hpreparing.journal] at hsaved
    exact absurd hsaved.symm (Option.some_ne_none _)

/-- ADD opens a namespace. -/
theorem assures_preparing {expected : Option Identity} :
    Assures sha256 request attachments (Preparing sha256 request attachments sides)
      (openNamespace side expected false)
      (fun _ ↦ Preparing sha256 request attachments (side :: sides))
      (Site.Safe sha256 request attachments) := by
  refine (assures_openNamespace Preparing.steady fun site hpreparing ↦
    ⟨hpreparing.safe.of_held, hpreparing.journal, fun place hplace ↦ ?_⟩).mono
      (fun _ h ↦ h) ?_ fun _ h ↦ h
  · by_cases hside : place = side
    · simp [hside]
    · simpa [hside] using hpreparing.held place hplace
  · rintro opened site ⟨hpreparing, hopened, hmissing⟩
    cases opened with
    | true =>
      exact ⟨hpreparing.safe, hpreparing.journal,
        List.forall_mem_cons.mpr ⟨hopened rfl, hpreparing.held⟩⟩
    | false => exact absurd (hmissing rfl).2 Bool.false_ne_true

/-- A check on what was read. -/
theorem assures_evaluate {α : Type} {holds : Site → Prop} {computation : Except Raised α}
    (hsteady : Steady sha256 request attachments holds) :
    Assures sha256 request attachments holds (evaluate computation) (fun _ ↦ holds)
      (Site.Safe sha256 request attachments) :=
  Relies.evaluate (fun _ _ _ h ↦ h) fun _ site _ h ↦ hsteady.safe site h

theorem assures_verifyBridge {holds : Site → Prop} {binding : Binding} {attached : Bool}
    (hsteady : Steady sha256 request attachments holds) :
    Assures sha256 request attachments holds (verifyBridge binding attached) (fun _ ↦ holds)
      (Site.Safe sha256 request attachments) := by
  refine ((assures_links hsteady).mono (fun _ h ↦ h) (fun _ _ h ↦ h.1) fun _ h ↦ h).bind
    fun current ↦ ?_
  dsimp only
  split
  · exact Relies.throw hsteady.safe
  · refine (assures_evaluate hsteady).bind fun _ ↦ (assures_evaluate hsteady).bind fun _ ↦
      (assures_evaluate hsteady).bind fun _ ↦ ?_
    split
    · exact Relies.throw hsteady.safe
    · exact (assures_evaluate hsteady).bind fun _ ↦ assures_examine hsteady

/-- The checks of ADD change nothing. -/
theorem assures_prepare {binding : Binding} {vmIdentity : Identity} :
    Assures sha256 request attachments (Preparing sha256 request attachments [])
      (prepare request binding vmIdentity)
      (fun _ ↦ Preparing sha256 request attachments [.peer, .vm])
      (Site.Safe sha256 request attachments) := by
  have hsteady : Steady sha256 request attachments
      (Preparing sha256 request attachments [.peer, .vm]) := Preparing.steady
  refine assures_preparing.bind fun _ ↦ assures_preparing.bind fun _ ↦ ?_
  refine Relies.bindAt (fun _ ↦ Preparing sha256 request attachments [.peer, .vm])
    (assures_act hsteady hsteady.safe fun site value next hholds hrun ↦ ?_) fun host ↦ ?_
  · simp only [bind_eq_ok, get_eq_ok, pure_eq_ok] at hrun
    obtain ⟨_, _, ⟨rfl, rfl⟩, rfl, rfl⟩ := hrun
    exact ⟨hholds, hholds.safe⟩
  · refine (assures_evaluate hsteady).bind fun _ ↦ (assures_examine hsteady).bind fun _ ↦ ?_
    refine ((assures_links hsteady).mono (fun _ h ↦ h) (fun _ _ h ↦ h.1) fun _ h ↦ h).bind
      fun current ↦ ?_
    exact (assures_evaluate hsteady).bind fun _ ↦ (assures_verifyBridge hsteady).bind fun _ ↦
      assures_examine hsteady

end Preparations

/-- The intent is written, and there is no pair yet. -/
structure Intended (sha256 : Sha256) (request : Request) (attachments : Set Text)
    (saved : ActiveRecord) (site : Site) : Prop where
  safe : site.Safe sha256 request attachments
  journal : site.journal = some saved
  absent : site.Absent
  held : ∀ side, site.held side = true

theorem Intended.steady :
    Steady sha256 request attachments (Intended sha256 request attachments saved) := by
  have hframe := disturb_frame
  refine ⟨fun site disturbance hforeign hintended ↦ ⟨hintended.safe.disturb hforeign,
    (hframe site disturbance).2.1.trans hintended.journal, hintended.absent.disturb, ?_⟩,
    fun _ hintended ↦ hintended.safe⟩
  rw [(hframe site disturbance).1]
  exact hintended.held

/-- The journal is written. -/
theorem assures_saveJournal {holds after : Site → Prop}
    (hsteady : Steady sha256 request attachments holds)
    (hafter : ∀ site, holds site → after { site with journal := some saved } ∧
      Site.Safe sha256 request attachments { site with journal := some saved }) :
    Assures sha256 request attachments holds (saveJournal saved) (fun _ ↦ after)
      (Site.Safe sha256 request attachments) := by
  refine assures_act hsteady hsteady.safe fun site value next hholds hrun ↦ ?_
  simp only [bind_eq_ok, get_eq_ok, set_eq_ok] at hrun
  obtain ⟨_, _, ⟨rfl, rfl⟩, rfl⟩ := hrun
  exact hafter site hholds

/-- The intent is written before the first effect. -/
theorem assures_intend (hmarker : IsMarker sha256 request saved.marker) :
    Assures sha256 request attachments (Preparing sha256 request attachments [.peer, .vm])
      (saveJournal saved) (fun _ ↦ Intended sha256 request attachments saved)
      (Site.Safe sha256 request attachments) := by
  refine assures_saveJournal Preparing.steady fun site hpreparing ↦ ?_
  have hsafe : Site.Safe sha256 request attachments { site with journal := some saved } :=
    ⟨hpreparing.safe.next, hpreparing.safe.createdNext, hpreparing.safe.foreign,
      hpreparing.safe.deleted, fun other hother ↦ Option.some.inj hother ▸ hmarker,
      Or.inl hpreparing.absent⟩
  refine ⟨⟨hsafe, rfl, hpreparing.absent, fun side ↦ ?_⟩, hsafe⟩
  cases side with
  | vm => exact hpreparing.held .vm (by simp)
  | peer => exact hpreparing.held .peer (by simp)

/-! ### The pair -/

/-- The intent of an ADD: no indices are recorded. -/
structure IsIntent (saved : ActiveRecord) : Prop where
  indices : saved.indices = none

theorem IsIntent.index (hintent : IsIntent saved) : saved.index side = none := by
  unfold ActiveRecord.index
  rw [hintent.indices]
  cases side with
  | vm => rfl
  | peer => rfl

variable {whole : Site} {marker name : Text} {mtu : ℕ}

/-- What a site with a new pair is. -/
theorem withPair_eq_some (hpair : site.withPair sha256 marker name mtu = some whole) :
    whole = { site with
        namespaces := whole.namespaces, nextDevice := site.nextDevice + 1,
        created := site.nextDevice :: site.created } ∧
      ∀ side link, whole.Has side link ↔ site.Has side link ∨
        (side = .vm ∧ link = pairEnd sha256 marker name mtu site.nextDevice site.nextIndices.1) ∨
        (side = .peer ∧
          link = pairEnd sha256 marker vethLocal mtu site.nextDevice site.nextIndices.2) := by
  unfold Site.withPair at hpair
  obtain ⟨half, hhalf, hpair⟩ := Option.bind_eq_some_iff.mp hpair
  obtain ⟨both, hboth, hpair⟩ := Option.bind_eq_some_iff.mp hpair
  obtain ⟨hhalfEq, hhalfHas⟩ := addLink_eq_some hhalf
  obtain ⟨hbothEq, hbothHas⟩ := addLink_eq_some hboth
  obtain rfl := Option.some.inj hpair
  rw [hhalfEq] at hbothEq
  refine ⟨by rw [hbothEq], fun side link ↦ ?_⟩
  have hsame : Site.Has { both with
      nextDevice := site.nextDevice + 1, created := site.nextDevice :: site.created } side link ↔
      both.Has side link := Iff.rfl
  rw [hsame, hbothHas, hhalfHas, or_assoc]

/-- A new pair is attached. -/
theorem attached_withPair (hintent : IsIntent saved) (hsafe : site.Safe sha256 request attachments)
    (habsent : site.Absent)
    (hpair : site.withPair sha256 saved.marker saved.request.ifname mtu = some whole) :
    whole.Attached sha256 saved site.nextDevice := by
  obtain ⟨hwhole, hhas⟩ := withPair_eq_some hpair
  have hcreated : whole.created = site.nextDevice :: site.created := by rw [hwhole]
  refine ⟨hcreated ▸ List.mem_cons_self, fun side ↦ ?_, fun side link hlink hown ↦ ?_⟩
  · cases side with
    | vm => exact ⟨_, (hhas .vm _).mpr (Or.inr (Or.inl ⟨rfl, rfl⟩)), rfl⟩
    | peer => exact ⟨_, (hhas .peer _).mpr (Or.inr (Or.inr ⟨rfl, rfl⟩)), rfl⟩
  · rcases (hhas side link).mp hlink with hold | ⟨rfl, rfl⟩ | ⟨rfl, rfl⟩
    · rw [hcreated] at hown
      rcases List.mem_cons.mp hown with hnext | hbefore
      · exact absurd hnext (hsafe.next side link hold).ne
      · exact absurd hbefore (habsent side link hold)
    · exact ⟨rfl, rfl, rfl, rfl, Or.inr ⟨hintent.indices, rfl⟩, by simp [hintent.index]⟩
    · exact ⟨rfl, rfl, rfl, rfl, Or.inr ⟨hintent.indices, rfl⟩, by simp [hintent.index]⟩

/-- The pair is created with the group of its marker. -/
theorem assures_createPair (hintent : IsIntent saved) :
    Assures sha256 request attachments (Intended sha256 request attachments saved)
      (createPair sha256 saved.marker saved.request.ifname mtu)
      (fun _ ↦ Phase sha256 request attachments saved False True)
      (Site.Safe sha256 request attachments) := by
  refine assures_act Intended.steady (fun _ h ↦ h.safe) fun site value next hintended hrun ↦ ?_
  obtain ⟨_, _, hget, hrun⟩ := bind_eq_ok.mp hrun
  obtain ⟨rfl, rfl⟩ := get_eq_ok.mp hget
  cases hpair : site.withPair sha256 saved.marker saved.request.ifname mtu with
  | none => simp [hpair] at hrun
  | some whole =>
    simp only [hpair, set_eq_ok] at hrun
    obtain rfl := hrun
    have hattached := attached_withPair hintent hintended.safe hintended.absent hpair
    obtain ⟨hwhole, hhas⟩ := withPair_eq_some hpair
    have hcreated : whole.created = site.nextDevice :: site.created := by rw [hwhole]
    have hnext : whole.nextDevice = site.nextDevice + 1 := by rw [hwhole]
    have hjournal : whole.journal = some saved := by rw [hwhole]; exact hintended.journal
    have hheld : whole.held = site.held := by rw [hwhole]
    have hdeleted : whole.deleted = site.deleted := by rw [hwhole]
    have hsafe : whole.Safe sha256 request attachments := by
      refine ⟨fun side link hlink ↦ ?_, fun device hdevice ↦ ?_, fun side link hlink hown ↦ ?_,
        fun device hdevice ↦ ?_, fun other hother ↦ ?_, Or.inr ⟨saved, _, hjournal, hattached⟩⟩
      · rw [hnext]
        rcases (hhas side link).mp hlink with hold | ⟨-, rfl⟩ | ⟨-, rfl⟩
        · exact (hintended.safe.next side link hold).trans (Nat.lt_succ_self _)
        · exact Nat.lt_succ_self _
        · exact Nat.lt_succ_self _
      · rw [hcreated] at hdevice
        rw [hnext]
        rcases List.mem_cons.mp hdevice with rfl | hbefore
        · exact Nat.lt_succ_self _
        · exact (hintended.safe.createdNext device hbefore).trans (Nat.lt_succ_self _)
      · rw [hcreated] at hown
        rcases (hhas side link).mp hlink with hold | ⟨-, rfl⟩ | ⟨-, rfl⟩
        · exact hintended.safe.foreign side link hold fun h ↦ hown (List.mem_cons_of_mem _ h)
        · exact absurd List.mem_cons_self hown
        · exact absurd List.mem_cons_self hown
      · rw [hdeleted] at hdevice
        rw [hcreated]
        exact List.mem_cons_of_mem _ (hintended.safe.deleted device hdevice)
      · exact hintended.safe.marker other (hintended.journal.trans (hjournal.symm.trans hother))
    refine ⟨⟨hsafe, hjournal, Or.inr ⟨trivial, ?_, ?_, _, hattached⟩⟩, hsafe⟩
    · rw [hheld]
      exact hintended.held .vm
    · rw [hheld]
      exact hintended.held .peer

/-- What completing the pair may change of a link. -/
structure Touched (marker : Text) (before after : Link) : Prop where
  ifname : after.ifname = before.ifname
  ifindex : after.ifindex = before.ifindex
  kind : after.kind = before.kind
  group : after.group = before.group
  device : after.device = before.device
  ifalias : after.ifalias = before.ifalias ∨ after.ifalias = some marker

/-- A mark on a link of the pair is the mark of its journal. -/
theorem Tagged.of_touched (hintent : IsIntent saved) {before after : Link}
    (htagged : Tagged sha256 saved side before) (htouched : Touched saved.marker before after) :
    Tagged sha256 saved side after := by
  refine ⟨htouched.ifname.trans htagged.ifname, htouched.kind.trans htagged.kind,
    htouched.group.trans htagged.group, ?_, by simp [hintent.index]⟩
  rcases htouched.ifalias with hsame | hmarked
  · rw [hsame]
    exact htagged.ifalias
  · exact Or.inl hmarked

/-- A foreign link that is marked stays foreign. -/
theorem Link.IsForeign.of_touched {before after : Link}
    (hforeign : before.IsForeign sha256 request attachments)
    (htouched : Touched marker before after) : after.IsForeign sha256 request attachments := by
  unfold Link.IsForeign at hforeign ⊢
  rwa [htouched.kind, htouched.group]

/-- Links that are only marked keep the pair and the invariant. -/
theorem Phase.of_touched (hintent : IsIntent saved)
    (hphase : Phase sha256 request attachments saved False True site)
    {spaces : Side → Option Namespace}
    (hback : ∀ side link, Site.Has { site with namespaces := spaces } side link →
      ∃ before, site.Has side before ∧ Touched saved.marker before link)
    (hforth : ∀ side link, site.Has side link →
      ∃ after, Site.Has { site with namespaces := spaces } side after ∧
        Touched saved.marker link after) :
    Phase sha256 request attachments saved False True { site with namespaces := spaces } := by
  have hgrasped : site.Grasped sha256 saved := (hphase.cases.resolve_left fun h ↦ h.2).2
  obtain ⟨device, hattached⟩ := hgrasped.attached
  have hkept : Site.Attached sha256 saved device { site with namespaces := spaces } := by
    refine ⟨hattached.created, fun side ↦ ?_, fun side link hlink hown ↦ ?_⟩
    · obtain ⟨link, hlink, hdevice⟩ := hattached.ends side
      obtain ⟨after, hafter, htouched⟩ := hforth side link hlink
      exact ⟨after, hafter, htouched.device.trans hdevice⟩
    · obtain ⟨before, hbefore, htouched⟩ := hback side link hlink
      rw [htouched.device] at hown ⊢
      obtain ⟨hdevice, htagged⟩ := hattached.own side before hbefore hown
      exact ⟨hdevice, htagged.of_touched hintent htouched⟩
  refine ⟨⟨fun side link hlink ↦ ?_, hphase.safe.createdNext, fun side link hlink hown ↦ ?_,
    hphase.safe.deleted, hphase.safe.marker, Or.inr ⟨saved, device, hphase.journal, hkept⟩⟩,
    hphase.journal, Or.inr ⟨trivial, hgrasped.vm, hgrasped.peer, device, hkept⟩⟩
  · obtain ⟨before, hbefore, htouched⟩ := hback side link hlink
    rw [htouched.device]
    exact hphase.safe.next side before hbefore
  · obtain ⟨before, hbefore, htouched⟩ := hback side link hlink
    rw [htouched.device] at hown
    exact (hphase.safe.foreign side before hbefore hown).of_touched htouched

/-- Completing the pair keeps it. -/
theorem assures_setLink (hintent : IsIntent saved) {change : Change Link.ifname}
    (htouched : ∀ link, Touched saved.marker link (change.apply link)) :
    Assures sha256 request attachments (Phase sha256 request attachments saved False True)
      (setLink side name change) (fun _ ↦ Phase sha256 request attachments saved False True)
      (Site.Safe sha256 request attachments) := by
  refine assures_act Phase.steady (fun _ h ↦ h.safe) fun site value next hphase hrun ↦ ?_
  obtain ⟨_, _, hget, hrun⟩ := bind_eq_ok.mp hrun
  obtain ⟨rfl, rfl⟩ := get_eq_ok.mp hget
  have hself : ∀ link : Link, Touched saved.marker link link :=
    fun _ ↦ ⟨rfl, rfl, rfl, rfl, rfl, Or.inl rfl⟩
  cases hspace : site.namespaces side with
  | none => simp [hspace] at hrun
  | some space =>
    simp only [hspace, bind_eq_ok, raiseIf_eq_ok, set_eq_ok] at hrun
    obtain ⟨_, _, ⟨-, rfl⟩, rfl⟩ := hrun
    suffices hnext : Phase sha256 request attachments saved False True _ from ⟨hnext, hnext.safe⟩
    refine hphase.of_touched hintent (fun place link hlink ↦ ?_) fun place link hlink ↦ ?_
    · rcases has_update.mp hlink with ⟨rfl, found, hfound, hmem⟩ | ⟨-, hkept⟩
      · obtain rfl := Option.some.inj hfound
        obtain ⟨before, hbefore, rfl⟩ := Table.mem_modify.mp hmem
        refine ⟨before, ⟨space, hspace, hbefore⟩, ?_⟩
        split_ifs
        · exact htouched before
        · exact hself before
      · exact ⟨link, hkept, hself link⟩
    · by_cases hplace : place = side
      · subst hplace
        obtain ⟨found, hfound, hmem⟩ := hlink
        obtain rfl : space = found := Option.some.inj (hspace.symm.trans hfound)
        refine ⟨_, has_update.mpr (Or.inl ⟨rfl, _, rfl, Table.mem_modify.mpr ⟨link, hmem, rfl⟩⟩), ?_⟩
        split_ifs
        · exact htouched link
        · exact hself link
      · exact ⟨link, has_update.mpr (Or.inr ⟨hplace, hlink⟩), hself link⟩

/-- One end gets its alias. -/
theorem assures_markEnd (hintent : IsIntent saved) :
    Assures sha256 request attachments (Phase sha256 request attachments saved False True)
      (markEnd sha256 saved.marker side name)
      (fun _ ↦ Phase sha256 request attachments saved False True)
      (Site.Safe sha256 request attachments) := by
  refine ((assures_lookupLink Phase.steady).mono (fun _ h ↦ h) (fun _ _ h ↦ h.1) fun _ h ↦ h).bind
    fun link ↦ (assures_evaluate Phase.steady).bind fun _ ↦ ?_
  exact assures_setLink hintent fun _ ↦ ⟨rfl, rfl, rfl, rfl, rfl, Or.inr rfl⟩

/-- The pair with one link as the only end on a side, for some sides. -/
structure Ends (sha256 : Sha256) (request : Request) (attachments : Set Text)
    (saved : ActiveRecord) (known : List (Side × Link)) (site : Site) : Prop where
  phase : Phase sha256 request attachments saved False True site
  only : ∀ pair ∈ known, ∀ link, site.Has pair.1 link → link.device ∈ site.created → link = pair.2

theorem Ends.steady {known : List (Side × Link)} :
    Steady sha256 request attachments (Ends sha256 request attachments saved known) := by
  refine ⟨fun site disturbance hforeign hends ↦
    ⟨Phase.steady.disturb site disturbance hforeign hends.phase,
      fun pair hpair link hlink hown ↦ ?_⟩, fun _ hends ↦ hends.phase.safe⟩
  rw [(disturb_frame _ _).2.2.1] at hown
  rcases of_has_disturb hlink with hold | ⟨-, hnew, -⟩
  · exact hends.only pair hpair link hold hown
  · exact absurd hown hnew

/-- The end of a side is looked up. -/
theorem assures_lookupEnd {known : List (Side × Link)} :
    Assures sha256 request attachments (Ends sha256 request attachments saved known)
      (lookupLink side (saved.endName side))
      (fun link ↦ Ends sha256 request attachments saved ((side, link) :: known))
      (Site.Safe sha256 request attachments) := by
  refine (assures_lookupLink Ends.steady).mono (fun _ h ↦ h) ?_ fun _ h ↦ h
  rintro link site ⟨hends, ⟨space, hspace, hmem⟩, hname⟩
  refine ⟨hends.phase, List.forall_mem_cons.mpr ⟨fun other hother hown ↦ ?_, hends.only⟩⟩
  obtain ⟨found, hfound, hotherMem⟩ := id hother
  obtain rfl : space = found := Option.some.inj (hspace.symm.trans hfound)
  obtain ⟨device, hattached⟩ := (hends.phase.cases.resolve_left fun h ↦ h.2).2.attached
  have htagged := (hattached.own side other hother hown).2
  exact Table.eq_of_key_eq hotherMem hmem (htagged.ifname.trans hname.symm)

/-- A link that passes as complete carries the alias. -/
theorem ifalias_of_checkLink {index : Option ℕ} {done : Unit}
    (hcheck : checkLink sha256 link marker index false = .ok done) : link.ifalias = some marker := by
  simp only [checkLink, failIf_eq_ok, not_or, ne_eq, not_not] at hcheck
  simpa using hcheck.1

/-- What `attach` leaves: both ends carry the alias and the returned indices. -/
structure Completed (sha256 : Sha256) (request : Request) (attachments : Set Text)
    (saved : ActiveRecord) (indices : ℕ × ℕ) (site : Site) : Prop where
  phase : Phase sha256 request attachments saved False True site
  marked : ∀ side link, site.Has side link → link.device ∈ site.created →
    link.ifalias = some saved.marker ∧
      link.ifindex = match side with
        | .vm => indices.1
        | .peer => indices.2

theorem Completed.steady {indices : ℕ × ℕ} :
    Steady sha256 request attachments (Completed sha256 request attachments saved indices) := by
  refine ⟨fun site disturbance hforeign hcompleted ↦
    ⟨Phase.steady.disturb site disturbance hforeign hcompleted.phase,
      fun side link hlink hown ↦ ?_⟩, fun _ hcompleted ↦ hcompleted.phase.safe⟩
  rw [(disturb_frame _ _).2.2.1] at hown
  rcases of_has_disturb hlink with hold | ⟨-, hnew, -⟩
  · exact hcompleted.marked side link hold hown
  · exact absurd hown hnew

/-- Joining a bridge or coming up changes no mark. -/
theorem touched_setMaster {master : Text} : Touched marker link ((setMaster master).apply link) :=
  ⟨rfl, rfl, rfl, rfl, rfl, Or.inl rfl⟩

theorem touched_setUp : Touched marker link (setUp.apply link) :=
  ⟨rfl, rfl, rfl, rfl, rfl, Or.inl rfl⟩

/-- The ends that are known are complete once both pass. -/
theorem Ends.completed {vmLink peer : Link} {first second : Unit}
    (hends : Ends sha256 request attachments saved [(.peer, peer), (.vm, vmLink)] site)
    (hvm : checkLink sha256 vmLink saved.marker none false = .ok first)
    (hpeer : checkLink sha256 peer saved.marker none false = .ok second) :
    Completed sha256 request attachments saved (vmLink.ifindex, peer.ifindex) site := by
  refine ⟨hends.phase, fun side link hlink hown ↦ ?_⟩
  cases side with
  | vm =>
    obtain rfl := hends.only (.vm, vmLink) (by simp) link hlink hown
    exact ⟨ifalias_of_checkLink hvm, rfl⟩
  | peer =>
    obtain rfl := hends.only (.peer, peer) (by simp) link hlink hown
    exact ⟨ifalias_of_checkLink hpeer, rfl⟩

/-- The pair is created and completed. -/
theorem assures_attach {binding : Binding} (hintent : IsIntent saved)
    (hrequest : saved.request = request) :
    Assures sha256 request attachments (Intended sha256 request attachments saved)
      (attach sha256 request binding saved.marker)
      (Completed sha256 request attachments saved) (Site.Safe sha256 request attachments) := by
  subst hrequest
  refine (assures_createPair hintent).bind fun _ ↦ (assures_markEnd hintent).bind fun _ ↦
    (assures_markEnd hintent).bind fun _ ↦
      (assures_setLink hintent fun _ ↦ touched_setMaster).bind fun _ ↦
        (assures_setLink hintent fun _ ↦ touched_setUp).bind fun _ ↦
          (assures_setLink hintent fun _ ↦ touched_setUp).bind fun _ ↦
            (assures_examine Phase.steady).bind fun _ ↦ ?_
  refine Relies.relyingOn (Ends sha256 saved.request attachments saved []) ?_
    fun site hphase ↦ ⟨hphase, by simp⟩
  refine assures_lookupEnd.bind fun vmLink ↦ assures_lookupEnd.bind fun peer ↦ ?_
  refine Relies.bindAt (fun _ site ↦
    Ends sha256 saved.request attachments saved [(.peer, peer), (.vm, vmLink)] site ∧
      ∃ done, checkLink sha256 vmLink saved.marker none false = .ok done)
    (Relies.evaluate (fun done _ hcheck hends ↦ ⟨hends, done, hcheck⟩)
      fun _ site _ hends ↦ hends.phase.safe) fun _ ↦ ?_
  refine Relies.bindAt (fun _ ↦
    Completed sha256 saved.request attachments saved (vmLink.ifindex, peer.ifindex))
    (Relies.evaluate (fun _ _ hpeer hends ↦ ?_) fun _ site _ hends ↦ hends.1.phase.safe)
    fun _ ↦ Relies.pure fun _ hcompleted ↦ hcompleted
  obtain ⟨hends, _, hvm⟩ := hends
  exact hends.completed hvm hpeer

/-- The journal of a complete pair is written. -/
theorem assures_complete {indices : ℕ × ℕ} :
    Assures sha256 request attachments (Completed sha256 request attachments saved indices)
      (saveJournal { saved with indices := some indices })
      (fun _ ↦ Site.Safe sha256 request attachments) (Site.Safe sha256 request attachments) := by
  refine assures_saveJournal Completed.steady fun site hcompleted ↦ ?_
  obtain ⟨device, hattached⟩ := (hcompleted.phase.cases.resolve_left fun h ↦ h.2).2.attached
  have hsafe := hcompleted.phase.safe
  have hmarker := hsafe.marker saved hcompleted.phase.journal
  suffices hnext : Site.Safe sha256 request attachments
      { site with journal := some { saved with indices := some indices } } from ⟨hnext, hnext⟩
  refine ⟨hsafe.next, hsafe.createdNext, hsafe.foreign, hsafe.deleted, fun other hother ↦ ?_,
    Or.inr ⟨_, device, rfl, hattached.created, hattached.ends, fun side link hlink hown ↦ ?_⟩⟩
  · rw [← Option.some.inj hother]
    exact hmarker
  · obtain ⟨hdevice, htagged⟩ := hattached.own side link hlink hown
    obtain ⟨halias, hindex⟩ := hcompleted.marked side link hlink hown
    refine ⟨hdevice, ?_, htagged.kind, htagged.group, Or.inl halias, ?_⟩
    · cases side with
      | vm => exact htagged.ifname
      | peer => exact htagged.ifname
    · cases side with
      | vm => simp [ActiveRecord.index, hindex]
      | peer => simp [ActiveRecord.index, hindex]

/-- What `add` leaves. -/
theorem assures_add {binding : Binding} {vmIdentity : Identity} (haccepts : Accepts request binding) :
    Assures sha256 request attachments (Site.Safe sha256 request attachments)
      (add sha256 request binding vmIdentity) (fun _ ↦ Site.Safe sha256 request attachments)
      (Site.Safe sha256 request attachments) := by
  have hsteady : Steady sha256 request attachments (Site.Safe sha256 request attachments) :=
    ⟨fun _ _ hforeign hsafe ↦ hsafe.disturb hforeign, fun _ h ↦ h⟩
  refine (assures_readJournal hsteady).bind fun journal ↦ ?_
  cases journal with
  | some saved => exact Relies.throw fun _ h ↦ h.1
  | none =>
    refine Relies.relyingOn (Preparing sha256 request attachments []) ?_
      fun site h ↦ ⟨h.1, h.2, by simp⟩
    refine assures_prepare.bind fun _ ↦
      (assures_intend ⟨binding, haccepts, rfl⟩).bind fun _ ↦ ?_
    exact Relies.bind (assures_attach ⟨rfl⟩ rfl) fun indices ↦ assures_complete

/-! ### Runs -/

/-- Without a journal nothing is left to undo. -/
theorem Site.Safe.undone (hsafe : site.Safe sha256 request attachments)
    (hjournal : site.journal = none) : Undone sha256 request attachments site := by
  refine ⟨hsafe, ?_, hjournal⟩
  rcases hsafe.pair with habsent | ⟨saved, device, hsaved, -⟩
  · exact habsent
  · rw [hjournal] at hsaved
    exact absurd hsaved.symm (Option.some_ne_none _)

/-- What a call leaves, and what a DEL that returns leaves. -/
theorem assures_perform (hgroups : DistinctGroups sha256 request attachments) (call : Call) :
    Assures sha256 request attachments (Site.Safe sha256 request attachments)
      (perform sha256 request call)
      (fun _ site ↦ site.Safe sha256 request attachments ∧
        ∀ wanted, call = .del wanted → Undone sha256 request attachments site)
      (Site.Safe sha256 request attachments) := by
  have hsteady : Steady sha256 request attachments (Site.Safe sha256 request attachments) :=
    ⟨fun _ _ hforeign hsafe ↦ hsafe.disturb hforeign, fun _ h ↦ h⟩
  cases call with
  | add binding vmIdentity =>
    by_cases haccepts : Accepts request binding
    · simp only [perform, haccepts, if_true]
      exact (assures_add haccepts).mono (fun _ h ↦ h)
        (fun _ _ h ↦ ⟨h, fun wanted hcall ↦ by cases hcall⟩) fun _ h ↦ h
    · simp only [perform, haccepts, if_false]
      exact Relies.throw fun _ h ↦ h
  | del wanted =>
    suffices hdelete : Assures sha256 request attachments (Site.Safe sha256 request attachments)
        (perform sha256 request (.del wanted)) (fun _ ↦ Undone sha256 request attachments)
        (Site.Safe sha256 request attachments) from
      hdelete.mono (fun _ h ↦ h) (fun _ _ hundone ↦ ⟨hundone.safe, fun _ _ ↦ hundone⟩) fun _ h ↦ h
    refine (assures_readJournal hsteady).bind fun journal ↦ ?_
    cases journal with
    | none => exact Relies.pure fun site h ↦ h.1.undone h.2
    | some saved =>
      cases hcleanup : saved.verifyCleanup wanted with
      | some failure =>
        simp only [hcleanup]
        exact Relies.throw fun _ h ↦ h.1
      | none =>
        simp only [hcleanup]
        exact assures_delete hgroups

/-- A site on which the attachment was never added: every link is foreign. -/
structure Site.Fresh (sha256 : Sha256) (request : Request) (attachments : Set Text) (site : Site) :
    Prop where
  created : site.created = []
  deleted : site.deleted = []
  journal : site.journal = none
  links : ∀ side link, site.Has side link →
    link.device < site.nextDevice ∧ link.IsForeign sha256 request attachments

theorem Site.Fresh.safe (hfresh : site.Fresh sha256 request attachments) :
    site.Safe sha256 request attachments := by
  refine ⟨fun side link hlink ↦ (hfresh.links side link hlink).1, ?_,
    fun side link hlink _ ↦ (hfresh.links side link hlink).2, ?_, ?_, Or.inl fun side link _ ↦ ?_⟩
  · simp [hfresh.created]
  · simp [hfresh.deleted]
  · simp [hfresh.journal]
  · simp [hfresh.created]

/-- An attachment has one marker. -/
theorem IsMarker.unique {first second : Text} (hfirst : IsMarker sha256 request first)
    (hsecond : IsMarker sha256 request second) : first = second := by
  obtain ⟨left, ⟨hpodLeft, hgenerationLeft, -⟩, rfl⟩ := hfirst
  obtain ⟨right, ⟨hpodRight, hgenerationRight, -⟩, rfl⟩ := hsecond
  have hpod : left.podUid = right.podUid := Option.some.inj (hpodLeft.symm.trans hpodRight)
  have hgeneration : left.generation = right.generation :=
    Option.some.inj (hgenerationLeft.symm.trans hgenerationRight)
  unfold aliasOf
  rw [hpod, hgeneration]

end Ads.PtpTools.Attachment
