import Ads.Transcript.Freezing

/-!
# The last order of a run

A run takes the parts up to the order that its `finish` announced, and is finished exactly there
(`withinLast_of_covers`), unless the part after the announced one is already in the buffer when the
announcement is accepted: then the loop of `_promote` runs past the end and appends it
(`withinLast_counterexample`).

`Told` says that the entries of a run are the fold of the parts up to its watermark, and `Within` that
the watermark keeps to the announcement. `Carries` is what a transaction does to both.
-/

set_option autoImplicit false
set_option relaxedAutoImplicit false

namespace Ads.Transcript

open Context Foundation Foundation.StateExcept Python

/-! ### Parts up to a watermark -/

/-- The parts of a run in the buffer from the first one up to a watermark. -/
def partsUpTo (buffer : Table Delta.key) (runId : Uuid) (watermark : ℤ) : List Delta :=
  (ordersBetween (-1) watermark).filterMap fun order ↦ buffer.find (runId, order)

section Parts

variable {buffer other : Table Delta.key} {runId : Uuid} {first middle last watermark : ℤ}

/-- The orders between two watermarks. -/
theorem mem_ordersBetween {order : ℤ} :
    order ∈ ordersBetween first last ↔ first < order ∧ order ≤ last := by
  unfold ordersBetween
  rw [List.mem_map]
  constructor
  · rintro ⟨index, hindex, rfl⟩
    have hbelow := List.mem_range.mp hindex
    omega
  · rintro ⟨hlow, hhigh⟩
    exact ⟨(order - first - 1).toNat, List.mem_range.mpr (by omega), by omega⟩

/-- The orders up to a watermark and those after it. -/
theorem ordersBetween_append (hfirst : first ≤ middle) (hlast : middle ≤ last) :
    ordersBetween first middle ++ ordersBetween middle last = ordersBetween first last := by
  obtain ⟨count, rfl⟩ : ∃ count : ℕ, middle = first + count := ⟨(middle - first).toNat, by omega⟩
  obtain ⟨more, rfl⟩ : ∃ more : ℕ, last = first + count + more :=
    ⟨(last - (first + count)).toNat, by omega⟩
  have hcount : (first + count - first).toNat = count := by omega
  have hmore : (first + count + more - (first + count)).toNat = more := by omega
  have hall : (first + count + more - first).toNat = count + more := by omega
  unfold ordersBetween
  rw [hcount, hmore, hall, List.range_add, List.map_append, List.map_map]
  refine congrArg (_ ++ ·) (List.map_congr_left fun index _ ↦ ?_)
  change first + count + 1 + (index : ℤ) = first + 1 + ((count + index : ℕ) : ℤ)
  omega

/-- The parts up to a watermark and those that become continuous after it. -/
theorem partsUpTo_append (hfirst : -1 ≤ middle) (hlast : middle ≤ last) :
    partsUpTo buffer runId middle ++
      ((ordersBetween middle last).filterMap fun order ↦ buffer.find (runId, order)) =
        partsUpTo buffer runId last := by
  unfold partsUpTo
  rw [← List.filterMap_append, ordersBetween_append hfirst hlast]

/-- The parts depend on what the buffer finds up to the watermark. -/
theorem partsUpTo_congr (hsame : ∀ order, 0 ≤ order → order ≤ watermark →
    other.find (runId, order) = buffer.find (runId, order)) :
    partsUpTo other runId watermark = partsUpTo buffer runId watermark := by
  unfold partsUpTo
  refine List.filterMap_congr fun order horder ↦ ?_
  obtain ⟨hlow, hhigh⟩ := mem_ordersBetween.mp horder
  exact hsame order (by omega) hhigh

end Parts

/-! ### What a run has told -/

/-- The entries of a run in a thread are the fold of its parts up to its watermark, which are all in
the buffer. -/
structure Told (buffer : Table Delta.key) (thread : Thread) (run : Run) : Prop where
  floor : -1 ≤ run.watermark
  present : ∀ order, 0 ≤ order → order ≤ run.watermark →
    (buffer.find (run.id, order)).isSome = true
  transcript : (thread.chain.filter fun entry ↦ entry.runId = some run.id).map Entry.content =
    (partsUpTo buffer run.id run.watermark).foldl addPart []

/-- The watermark of a run keeps to the order that was announced as the last one. -/
structure Run.Within (buffer : Table Delta.key) (run : Run) : Prop where
  opened : run.status ≠ .finished → ∀ last ∈ run.lastOrder,
    run.watermark < last ∧ buffer.find (run.id, last + 1) = none
  ended : run.status = .finished → run.lastOrder = some run.watermark

/-- What a transaction does to the runs of a thread: those that were there keep to their
announcements, and so do new ones. -/
structure Carries (before after : Database) (thread next : Thread) : Prop where
  represents : Represents after next
  session_id : next.session.id = thread.session.id
  elsewhere : SameElsewhere thread.session.id before after
  carried : ∀ run ∈ before.runs, run.sessionId = thread.session.id →
    Told before.buffer thread run → run.Within before.buffer →
      ∀ later ∈ after.runs, later.id = run.id →
        Told after.buffer next later ∧ later.Within after.buffer
  started : ∀ later ∈ after.runs, later.sessionId = thread.session.id →
    (∃ run ∈ before.runs, run.id = later.id ∧ run.sessionId = thread.session.id) ∨
      Told after.buffer next later ∧ later.Within after.buffer
  buffered : ∀ run ∈ before.runs, run.sessionId ≠ thread.session.id → ∀ order,
    after.buffer.find (run.id, order) = before.buffer.find (run.id, order)

/-- What the entries of a run say in a list does not depend on where the newest one points. -/
theorem content_relink {link : Option Uuid} {chain : List Entry} {runId : Uuid} :
    ((relink link chain).filter fun entry ↦ entry.runId = some runId).map Entry.content =
      (chain.filter fun entry ↦ entry.runId = some runId).map Entry.content := by
  cases chain with
  | nil => rfl
  | cons entry rest =>
    unfold relink
    rw [List.filter_cons, List.filter_cons]
    dsimp only
    split_ifs <;> rfl

/-- The entries of a run that are all among the settled ones. -/
theorem Extends.content {chain settled : List Entry} {runId : Uuid}
    (hextends : Extends chain settled) (hnodup : (chain.map Entry.id).Nodup)
    (howned : ∀ entry ∈ chain, entry.runId = some runId →
      ∃ old ∈ settled, entry = { old with nextId := entry.nextId }) :
    (chain.filter fun entry ↦ entry.runId = some runId).map Entry.content =
      (settled.filter fun entry ↦ entry.runId = some runId).map Entry.content := by
  obtain ⟨front, link, rfl⟩ := hextends
  rw [List.map_append, List.nodup_append, map_id_relink] at hnodup
  have hfront : (front.filter fun entry ↦ entry.runId = some runId) = [] := by
    refine List.filter_eq_nil_iff.mpr fun entry hentry hrun ↦ ?_
    obtain ⟨old, hold, hsame⟩ :=
      howned entry (List.mem_append_left _ hentry) (of_decide_eq_true hrun)
    refine hnodup.2.2 _ (List.mem_map_of_mem hentry) _ (List.mem_map_of_mem hold) ?_
    rw [hsame]
  rw [List.filter_append, hfront, List.nil_append, content_relink]

/-- The entries of a finished run say what they said. -/
theorem Advances.content {opens : Prop} {before after : Database} {thread next : Thread} {run : Run}
    (hadvances : Advances opens before after thread next) (hrepresents : Represents before thread)
    (hrun : run ∈ before.runs) (hfinished : run.status = .finished) :
    (next.chain.filter fun entry ↦ entry.runId = some run.id).map Entry.content =
      (thread.chain.filter fun entry ↦ entry.runId = some run.id).map Entry.content := by
  have hafter : Extends next.chain thread.settled :=
    (Thread.extends_settled hadvances.represents).trans hadvances.settled
  rw [hafter.content hadvances.represents.holds.nodup (hadvances.fresh run hrun hfinished),
    (Thread.extends_settled hrepresents).content hrepresents.holds.nodup
      fun entry hentry howned ↦ hrepresents.settled_of_finished hrun hfinished hentry howned]

section Current

variable {before after : Store} {thread next : Thread} {current : Current} {run : Run}
  {deltas : List Delta} {progress : Run.Progress}

/-- A finished run keeps what it told. -/
theorem Advances.told {opens : Prop} {before after : Database} {thread next : Thread} {run : Run}
    (hadvances : Advances opens before after thread next) (hrepresents : Represents before thread)
    (hrun : run ∈ before.runs) (hfinished : run.status = .finished)
    (hbuffer : ∀ order, after.buffer.find (run.id, order) = before.buffer.find (run.id, order))
    (htold : Told before.buffer thread run) : Told after.buffer next run where
  floor := htold.floor
  present order hlow hhigh := by
    rw [hbuffer]
    exact htold.present order hlow hhigh
  transcript := by
    rw [hadvances.content hrepresents hrun hfinished, htold.transcript,
      partsUpTo_congr fun order _ _ ↦ hbuffer order]

/-- A run that is not the one in flight has finished. -/
theorem IsCurrent.finished {runs : Table Run.id} (hturn : IsCurrent runs thread current)
    (hrun : run ∈ runs) (hsession : run.sessionId = thread.session.id)
    (hother : run.id ≠ current.run.id) : run.status = .finished := by
  cases hstatus : run.status with
  | finished => rfl
  | pending | running | finishing =>
    have hflight : run.status.inFlight = true := by rw [hstatus]; rfl
    exact absurd (congrArg Run.id (hturn.only run hrun hsession hflight)) hother

/-- What a transaction on the run in flight does to the runs of its thread. -/
theorem carries_of_current (hrepresents : Represents before.toDatabase thread)
    (hcurrent : thread.current = some current)
    (hadvances : Advances True before.toDatabase after.toDatabase thread next)
    (hbuffer : ∀ runId, runId ≠ current.run.id → ∀ order,
      after.buffer.find (runId, order) = before.buffer.find (runId, order))
    (hmine : Told before.buffer thread current.run → current.run.Within before.buffer →
      ∀ later ∈ after.runs, later.id = current.run.id →
        Told after.buffer next later ∧ later.Within after.buffer)
    (hknown : ∀ later ∈ after.runs, ∃ run ∈ before.runs,
      run.id = later.id ∧ run.sessionId = later.sessionId) :
    Carries before.toDatabase after.toDatabase thread next := by
  have hturn := hrepresents.isCurrent current hcurrent
  refine ⟨hadvances.represents, hadvances.session_id, hadvances.elsewhere, ?_, ?_, ?_⟩
  · intro run hrun hsession htold hwithin later hlater hid
    by_cases hsame : run.id = current.run.id
    · have heq : run = current.run := Table.eq_of_key_eq hrun hturn.run_mem hsame
      subst heq
      exact hmine htold hwithin later hlater hid
    · have hfinished := hturn.finished hrun hsession hsame
      have heq : later = run :=
        Table.eq_of_key_eq hlater (hadvances.runs run hrun hfinished) hid
      subst heq
      exact ⟨hadvances.told hrepresents hrun hfinished (hbuffer later.id hsame) htold,
        fun hopen ↦ absurd hfinished hopen, hwithin.ended⟩
  · intro later hlater hsession
    obtain ⟨run, hrun, hid, hsame⟩ := hknown later hlater
    exact Or.inl ⟨run, hrun, hid, hsame.trans hsession⟩
  · intro run hrun hother order
    exact hbuffer run.id (fun heq ↦ hother
      (Table.eq_of_key_eq hrun hturn.run_mem heq ▸ hturn.session)) order

/-- The run in flight tells more parts. -/
theorem Continued.told {session : Session} {next : Current}
    (hrepresents : Represents before.toDatabase thread) (hcurrent : thread.current = some current)
    (hcontinued : Continued before thread current deltas progress after session next)
    (hwatermark : current.run.watermark ≤ progress.watermark)
    (hdeltas : deltas = (ordersBetween current.run.watermark progress.watermark).filterMap
      fun order ↦ before.buffer.find (current.run.id, order))
    (hpresent : ∀ order, current.run.watermark < order → order ≤ progress.watermark →
      (before.buffer.find (current.run.id, order)).isSome = true)
    (htold : Told before.buffer thread current.run) :
    Told after.buffer ⟨session, thread.settled, some next⟩ next.run := by
  have hid : next.run.id = current.run.id := hcontinued.runs.key_eq
  have hmark : next.run.watermark = progress.watermark :=
    congrArg Run.Progress.watermark hcontinued.progress_eq
  have hturn := hrepresents.isCurrent current hcurrent
  have hnext := hcontinued.represents.isCurrent next rfl
  have hbefore := htold.transcript
  rw [hturn.filter_chain hcurrent] at hbefore
  refine ⟨hmark ▸ htold.floor.trans hwatermark, fun order hlow hhigh ↦ ?_, ?_⟩
  · rw [hid, hcontinued.buffer]
    rcases le_or_gt order current.run.watermark with hle | hgt
    · exact htold.present order hlow hle
    · exact hpresent order hgt (hmark ▸ hhigh)
  · rw [hnext.filter_chain rfl, hcontinued.parts, hbefore, hid, hmark, hcontinued.buffer, hdeltas,
      ← partsUpTo_append htold.floor hwatermark, List.foldl_append]

/-- A turn that goes on keeps to the announcement. -/
theorem Continued.carries {session : Session} {next : Current}
    (hrepresents : Represents before.toDatabase thread) (hcurrent : thread.current = some current)
    (hcontinued : Continued before thread current deltas progress after session next)
    (hwatermark : current.run.watermark ≤ progress.watermark)
    (hdeltas : deltas = (ordersBetween current.run.watermark progress.watermark).filterMap
      fun order ↦ before.buffer.find (current.run.id, order))
    (hpresent : ∀ order, current.run.watermark < order → order ≤ progress.watermark →
      (before.buffer.find (current.run.id, order)).isSome = true)
    (hopen : current.run.Within before.buffer → ∀ last ∈ progress.lastOrder,
      progress.watermark < last ∧ before.buffer.find (current.run.id, last + 1) = none) :
    Carries before.toDatabase after.toDatabase thread ⟨session, thread.settled, some next⟩ := by
  have hturn := hrepresents.isCurrent current hcurrent
  have hid : next.run.id = current.run.id := hcontinued.runs.key_eq
  have hnext := hcontinued.represents.isCurrent next rfl
  refine carries_of_current hrepresents hcurrent (hcontinued.advances hrepresents hcurrent)
    (fun _ _ _ ↦ by rw [hcontinued.buffer]) (fun htold hwithin later hlater hlaterId ↦ ?_)
    fun later hlater ↦ ?_
  · have heq : later = next.run :=
      Table.eq_of_key_eq hlater hcontinued.runs.mem (hlaterId.trans hid.symm)
    subst heq
    refine ⟨hcontinued.told hrepresents hcurrent hwatermark hdeltas hpresent htold,
      fun _ last hlast ↦ ?_, fun hfinished ↦ absurd hfinished hnext.not_finished⟩
    have hprogress := hcontinued.progress_eq
    have hmark : next.run.watermark = progress.watermark :=
      congrArg Run.Progress.watermark hprogress
    have hannounced : next.run.lastOrder = progress.lastOrder :=
      congrArg Run.Progress.lastOrder hprogress
    rw [hid, hcontinued.buffer, hmark]
    exact hopen hwithin last (hannounced ▸ hlast)
  · rcases (hcontinued.runs.mem_iff later).mp hlater with rfl | ⟨hbefore, -⟩
    · exact ⟨current.run, hturn.run_mem, hid.symm,
        (congrArg Run.Identity.sessionId hcontinued.identity).symm⟩
    · exact ⟨later, hbefore, rfl, rfl⟩

/-- A turn that is settled at the announced order. -/
theorem Settles.carries (hrepresents : Represents before.toDatabase thread)
    (hcurrent : thread.current = some current)
    (hsettles : Settles before thread current deltas progress after)
    (hwatermark : current.run.watermark ≤ progress.watermark)
    (hdeltas : deltas = (ordersBetween current.run.watermark progress.watermark).filterMap
      fun order ↦ before.buffer.find (current.run.id, order))
    (hpresent : ∀ order, current.run.watermark < order → order ≤ progress.watermark →
      (before.buffer.find (current.run.id, order)).isSome = true)
    (hended : current.run.Within before.buffer → progress.lastOrder = some progress.watermark) :
    ∃ next, Carries before.toDatabase after.toDatabase thread next := by
  obtain ⟨between, session, next, last, hcontinued, hfinished⟩ := hsettles
  have hturn := hrepresents.isCurrent current hcurrent
  have hid : next.run.id = current.run.id := hcontinued.runs.key_eq
  have hdone : next.run.finish.id = current.run.id := hid
  refine ⟨_, carries_of_current hrepresents hcurrent
    (hfinished.advances hrepresents hcurrent hcontinued)
    (fun _ _ _ ↦ by rw [hfinished.buffer, hcontinued.buffer])
    (fun htold hwithin later hlater hlaterId ↦ ?_) fun later hlater ↦ ?_⟩
  · have heq : later = next.run.finish :=
      Table.eq_of_key_eq hlater hfinished.runs.mem (hlaterId.trans hdone.symm)
    subst heq
    have hnext :=
      hcontinued.told hrepresents hcurrent hwatermark hdeltas hpresent htold
    have hprogress := hcontinued.progress_eq
    refine ⟨⟨hnext.floor, fun order hlow hhigh ↦ ?_, ?_⟩, fun hopen ↦ absurd rfl hopen, fun _ ↦ ?_⟩
    · rw [hfinished.buffer]
      exact hnext.present order hlow hhigh
    · rw [hfinished.buffer]
      exact hnext.transcript
    · have hlastOrder := congrArg Run.Progress.lastOrder hprogress
      have hmark := congrArg Run.Progress.watermark hprogress
      exact hlastOrder.trans ((hended hwithin).trans (congrArg some hmark.symm))
  · rcases (hfinished.runs.mem_iff later).mp hlater with rfl | ⟨hbetween, -⟩
    · exact ⟨current.run, hturn.run_mem, hdone.symm,
        (congrArg Run.Identity.sessionId hcontinued.identity).symm⟩
    · rcases (hcontinued.runs.mem_iff later).mp hbetween with rfl | ⟨hbefore, -⟩
      · exact ⟨current.run, hturn.run_mem, hid.symm,
          (congrArg Run.Identity.sessionId hcontinued.identity).symm⟩
      · exact ⟨later, hbefore, rfl, rfl⟩

/-- A turn that is gone. -/
theorem Breaks.carries (hrepresents : Represents before.toDatabase thread)
    (hcurrent : thread.current = some current) (hbreaks : Breaks before thread current after) :
    ∃ next, Carries before.toDatabase after.toDatabase thread next := by
  obtain ⟨between, session, next, last, progress, hcontinued, hbroken⟩ := hbreaks
  have hturn := hrepresents.isCurrent current hcurrent
  have hid : next.run.id = current.run.id := hcontinued.runs.key_eq
  refine ⟨_, carries_of_current hrepresents hcurrent
    (hbroken.advances hrepresents hcurrent hcontinued) (fun runId hother order ↦ ?_)
    (fun _ _ later hlater hlaterId ↦ ?_) fun later hlater ↦ ?_⟩
  · rw [← hcontinued.buffer]
    refine Table.find_congr fun delta hkey ↦ ?_
    have hmine : delta.runId ≠ next.run.id := by
      have hrunId : delta.runId = runId := (Prod.ext_iff.mp hkey).1
      rw [hid, hrunId]
      exact hother
    exact (hbroken.buffer delta).trans (and_iff_left hmine)
  · exact absurd (hlaterId.trans hid.symm) ((hbroken.runs later).mp hlater).2
  · rcases (hcontinued.runs.mem_iff later).mp ((hbroken.runs later).mp hlater).1 with
      rfl | ⟨hbefore, -⟩
    · exact absurd rfl ((hbroken.runs _).mp hlater).2
    · exact ⟨later, hbefore, rfl, rfl⟩

/-- A turn that goes on by the parts in the buffer keeps to the announcement: the part after the
announced one is not there. -/
theorem Promotes.carries (hrepresents : Represents before.toDatabase thread)
    (hcurrent : thread.current = some current) (hpromotes : Promotes before thread current after) :
    ∃ next, Carries before.toDatabase after.toDatabase thread next := by
  have hturn := hrepresents.isCurrent current hcurrent
  have hreaches : ReachesTo (presentOrders before.buffer current.run.id) current.run.watermark
      (promotedTo before.buffer current.run.id current.run.watermark) := promotedTo_reaches
  have hpresent : ∀ order, current.run.watermark < order →
      order ≤ promotedTo before.buffer current.run.id current.run.watermark →
        (before.buffer.find (current.run.id, order)).isSome = true :=
    fun order hlow hhigh ↦ mem_presentOrders.mp (hreaches.mem order hlow hhigh)
  -- The watermark does not pass the announced order, because the part after it is missing.
  have hstops : current.run.Within before.buffer → ∀ last ∈ current.run.lastOrder,
      promotedTo before.buffer current.run.id current.run.watermark ≤ last := by
    intro hwithin last hlast
    obtain ⟨hbelow, hmissing⟩ := hwithin.opened hturn.not_finished last hlast
    by_contra hpassed
    have hthere := hpresent (last + 1) (by omega) (by omega)
    rw [hmissing] at hthere
    cases hthere
  unfold Promotes at hpromotes
  dsimp only at hpromotes
  split_ifs at hpromotes with hends
  · obtain ⟨-, last, hlast, hreached⟩ := hends
    refine hpromotes.carries hrepresents hcurrent hreaches.le rfl hpresent fun hwithin ↦ ?_
    have hsame := hstops hwithin last hlast
    rw [Option.mem_def] at hlast
    exact hlast.trans (congrArg some (le_antisymm hreached hsame))
  · obtain ⟨session, next, hcontinued⟩ := hpromotes
    refine ⟨_, hcontinued.carries hrepresents hcurrent hreaches.le rfl hpresent
      fun hwithin last hlast ↦ ?_⟩
    obtain ⟨hbelow, hmissing⟩ := hwithin.opened hturn.not_finished last hlast
    refine ⟨lt_of_not_ge fun hreached ↦ ?_, hmissing⟩
    dsimp only at hreached
    by_cases hmoved : current.run.watermark <
        promotedTo before.buffer current.run.id current.run.watermark
    · exact hends ⟨hmoved, last, hlast, hreached⟩
    · have hle := hreaches.le
      omega

/-- Nothing changes. -/
theorem Carries.refl {database : Database} (hrepresents : Represents database thread) :
    Carries database database thread thread where
  represents := hrepresents
  session_id := rfl
  elsewhere := .refl _ _
  carried run hrun _ htold hwithin later hlater hid := by
    have hsame : later = run := Table.eq_of_key_eq hlater hrun hid
    exact hsame ▸ ⟨htold, hwithin⟩
  started later hlater hsession := Or.inl ⟨later, hlater, rfl, hsession⟩
  buffered _ _ _ _ := rfl

/-- A turn that goes on without more parts. -/
theorem Proceeds.carries (hrepresents : Represents before.toDatabase thread)
    (hcurrent : thread.current = some current)
    (hproceeds : Proceeds before thread current [] progress after)
    (hwatermark : progress.watermark = current.run.watermark)
    (hopen : current.run.Within before.buffer → ∀ last ∈ progress.lastOrder,
      progress.watermark < last ∧ before.buffer.find (current.run.id, last + 1) = none) :
    ∃ next, Carries before.toDatabase after.toDatabase thread next := by
  obtain ⟨session, next, hcontinued⟩ := hproceeds
  refine ⟨_, hcontinued.carries hrepresents hcurrent hwatermark.ge ?_ ?_ hopen⟩
  · rw [hwatermark, ordersBetween, Int.sub_self]
    rfl
  · exact fun order hlow hhigh ↦ absurd (hwatermark ▸ hhigh) (not_le.mpr hlow)

/-- A report that the engine is alive. -/
theorem KeepsAlive.carries (hrepresents : Represents before.toDatabase thread)
    (hkeeps : KeepsAlive before thread after) :
    ∃ next, Carries before.toDatabase after.toDatabase thread next := by
  rcases hkeeps with rfl | ⟨current, hcurrent, status, hproceeds⟩
  · exact ⟨thread, .refl hrepresents⟩
  · have hturn := hrepresents.isCurrent current hcurrent
    exact hproceeds.carries hrepresents hcurrent rfl
      fun hwithin ↦ hwithin.opened hturn.not_finished

/-- One more part in the buffer keeps what a run told. -/
theorem Told.insert {buffer inserted : Table Delta.key} {delta : Delta}
    (hinsert : buffer.insert delta = some inserted) (htold : Told buffer thread run) :
    Told inserted thread run := by
  have hsame : ∀ order, 0 ≤ order → order ≤ run.watermark →
      inserted.find (run.id, order) = buffer.find (run.id, order) := by
    intro order hlow hhigh
    rw [Table.find_insert hinsert]
    refine if_neg fun hkey ↦ ?_
    obtain ⟨old, hold⟩ := Option.isSome_iff_exists.mp (htold.present order hlow hhigh)
    obtain ⟨hmem, hfound⟩ := Table.find_eq_some_iff.mp hold
    exact (Table.mem_insert hinsert).2 old hmem (hfound.trans hkey)
  refine ⟨htold.floor, fun order hlow hhigh ↦ ?_, ?_⟩
  · rw [hsame order hlow hhigh]
    exact htold.present order hlow hhigh
  · rw [htold.transcript, partsUpTo_congr hsame]

/-- A part of the output. -/
theorem Receives.carries {order : ℤ} {kind : Kind} {text : Text} {pressure : Option Pressure}
    {messageId : Option Uuid} (hrepresents : Represents before.toDatabase thread)
    (hreceives : Receives before thread order kind text pressure messageId after) :
    ∃ next, Carries before.toDatabase after.toDatabase thread next := by
  rcases hreceives with ⟨rfl, -⟩ | ⟨current, hcurrent, buffer, hinsert, htaken, hpromotes⟩
  · exact ⟨thread, .refl hrepresents⟩
  have hturn := hrepresents.isCurrent current hcurrent
  have hinserted : Represents { before.toDatabase with buffer := buffer } thread :=
    hrepresents.withBuffer
  obtain ⟨next, hcarries⟩ := Promotes.carries (by exact hinserted) hcurrent hpromotes
  have hsame := hcarries.elsewhere
  refine ⟨next, hcarries.represents, hcarries.session_id,
    ⟨hsame.sessions, hsame.entries, hsame.runs⟩, ?_, hcarries.started, ?_⟩
  · intro run hrun hsession htold hwithin
    refine hcarries.carried run hrun hsession (htold.insert hinsert)
      ⟨fun hopen last hlast ↦ ?_, hwithin.ended⟩
    obtain ⟨hbelow, hmissing⟩ := hwithin.opened hopen last hlast
    refine ⟨hbelow, ?_⟩
    rw [Table.find_insert hinsert, hmissing]
    refine if_neg fun hkey ↦ ?_
    obtain ⟨hrunId, horder⟩ := Prod.mk.inj hkey
    have heq : run = current.run := Table.eq_of_key_eq hrun hturn.run_mem hrunId
    subst heq
    have hbeyond : last < order := by
      change last + 1 = order at horder
      omega
    exact htaken (Or.inr (Or.inr (Or.inl ⟨last, hlast, hbeyond⟩)))
  · intro run hrun hother order
    rw [hcarries.buffered run hrun hother order, Table.find_insert hinsert]
    refine if_neg fun hkey ↦ hother ?_
    have heq : run = current.run :=
      Table.eq_of_key_eq hrun hturn.run_mem (Prod.mk.inj hkey).1
    exact heq ▸ hturn.session

/-- The announcement of the last part, if the part after it is not in the buffer. -/
theorem Finishes.carries {lastOrder : Option ℤ}
    (hrepresents : Represents before.toDatabase thread) (hcurrent : thread.current = some current)
    (hfinishes : Finishes before thread current lastOrder after)
    (hcovers : ∀ last ∈ lastOrder, 0 ≤ last → current.run.watermark ≤ last →
      current.run.lastOrder = none → before.buffer.find (current.run.id, last + 1) = none) :
    ∃ next, Carries before.toDatabase after.toDatabase thread next := by
  have hturn := hrepresents.isCurrent current hcurrent
  cases lastOrder with
  | none => exact Breaks.carries hrepresents hcurrent hfinishes
  | some last =>
    unfold Finishes at hfinishes
    dsimp only at hfinishes
    split_ifs at hfinishes with hinvalid hreached
    · exact hfinishes.carries hrepresents hcurrent
    · refine hfinishes.carries hrepresents hcurrent le_rfl ?_ ?_ fun hwithin ↦ ?_
      · change [] = (ordersBetween current.run.watermark current.run.watermark).filterMap _
        rw [ordersBetween, Int.sub_self]
        rfl
      · exact fun order hlow hhigh ↦ absurd hhigh (not_le.mpr hlow)
      · refine congrArg some (le_antisymm hreached ?_)
        unfold EngineOutputService.announced
        cases hknown : current.run.lastOrder with
        | none =>
          change current.run.watermark ≤ last
          omega
        | some known => exact (hwithin.opened hturn.not_finished known hknown).1.le
    · obtain ⟨status, hproceeds⟩ := hfinishes
      refine hproceeds.carries hrepresents hcurrent rfl fun hwithin announced hannounced ↦ ?_
      rw [Option.mem_def, Option.some_inj] at hannounced
      subst hannounced
      refine ⟨not_le.mp hreached, ?_⟩
      unfold EngineOutputService.announced
      cases hknown : current.run.lastOrder with
      | none => exact hcovers last rfl (by omega) (by omega) hknown
      | some known => exact (hwithin.opened hturn.not_finished known hknown).2

/-- A turn that is opened has told nothing. -/
theorem Started.carries {run : Run} {session : Session} {user : Entry}
    (hrepresents : Represents before.toDatabase thread)
    (hstarted : Started before thread run after session user) :
    Carries before.toDatabase after.toDatabase thread
      ⟨session, thread.settled, some ⟨run, user, []⟩⟩ where
  represents := hstarted.represents
  session_id := hstarted.session_id
  elsewhere := hstarted.elsewhere
  carried old hold hsession htold hwithin later hlater hid := by
    rcases (hstarted.runs later).mp hlater with rfl | hbefore
    · exact absurd hid.symm (hstarted.free old hold)
    · have hsame : later = old := Table.eq_of_key_eq hbefore hold hid
      subst hsame
      have hfinished : later.status = .finished := by
        have hidle := hrepresents.idle hstarted.idle later hold hsession
        cases hstatus : later.status with
        | finished => rfl
        | pending | running | finishing => rw [hstatus] at hidle; cases hidle
      have hkept : Told after.buffer _ later := (hstarted.advances hrepresents).told hrepresents hold
        hfinished (fun _ ↦ by rw [hstarted.buffer]) htold
      exact ⟨hkept, hstarted.buffer ▸ hwithin⟩
  started later hlater hsession := by
    rcases (hstarted.runs later).mp hlater with rfl | hbefore
    · have hturn := hstarted.represents.isCurrent ⟨later, user, []⟩ rfl
      have hmark : later.watermark = -1 := congrArg Run.Progress.watermark hstarted.progress
      have hannounced : later.lastOrder = none :=
        congrArg Run.Progress.lastOrder hstarted.progress
      refine Or.inr ⟨⟨hmark.ge, fun order hlow hhigh ↦ ?_, ?_⟩, fun _ last hlast ↦ ?_,
        fun hfinished ↦ absurd hfinished hturn.not_finished⟩
      · omega
      · rw [hturn.filter_chain rfl, hmark]
        rfl
      · rw [hannounced] at hlast
        cases hlast
    · exact Or.inl ⟨later, hbefore, rfl, hsession⟩
  buffered _ _ _ _ := by rw [hstarted.buffer]

end Current

/-! ### One transaction -/

/-- Every run of the tables keeps to its announcement. -/
def Accounted (database : Database) : Prop :=
  ∀ run ∈ database.runs, ∃ thread, Represents database thread ∧
    thread.session.id = run.sessionId ∧ Told database.buffer thread run ∧
      run.Within database.buffer

/-- A `finish` that is accepted covers the buffer: the part after the order that it announces is not
there. -/
def Operation.Covers (database : Database) : Operation → Prop
  | .finish sessionId lastOrder messageId => ∀ last ∈ lastOrder, 0 ≤ last →
      ∀ run ∈ database.runs, run.sessionId = sessionId → run.status.inFlight = true →
        run.isOther messageId = false → run.watermark ≤ last → run.lastOrder = none →
          database.buffer.find (run.id, last + 1) = none
  | _ => True

/-- A transaction that carries the runs of the threads of one session. -/
theorem Accounted.of_carries {before after : Database} (haccounted : Accounted before)
    (hsound : Sound before) {sessionId : Uuid}
    (hsession : ∃ session ∈ before.sessions, session.id = sessionId)
    (hcarries : ∀ thread, Represents before thread → thread.session.id = sessionId →
      ∃ next, Carries before after thread next) : Accounted after := by
  obtain ⟨session, hmem, rfl⟩ := hsession
  obtain ⟨mine, rfl, hmine⟩ := hsound.threads session hmem
  obtain ⟨moved, hmoved⟩ := hcarries mine hmine rfl
  intro run hrun
  by_cases hid : run.sessionId = mine.session.id
  · rcases hmoved.started run hrun hid with ⟨old, hold, hsame, hsession⟩ | hnew
    · obtain ⟨thread, hrepresents, hthread, htold, hwithin⟩ := haccounted old hold
      have hown := hthread.trans hsession
      obtain ⟨next, hnext⟩ := hcarries thread hrepresents hown
      exact ⟨next, hnext.represents, hnext.session_id.trans (hown.trans hid.symm),
        hnext.carried old hold hthread.symm htold hwithin run hrun hsame.symm⟩
    · exact ⟨moved, hmoved.represents, hmoved.session_id.trans hid.symm, hnew⟩
  · have hbefore := (hmoved.elsewhere.runs run hid).mp hrun
    obtain ⟨thread, hrepresents, hthread, htold, hwithin⟩ := haccounted run hbefore
    have hsame := hmoved.buffered run hbefore hid
    refine ⟨thread, hrepresents.of_sameElsewhere (hthread ▸ hid) hmoved.elsewhere, hthread,
      ⟨htold.floor, fun order hlow hhigh ↦ ?_, ?_⟩, fun hopen last hlast ↦ ?_, hwithin.ended⟩
    · rw [hsame]
      exact htold.present order hlow hhigh
    · rw [htold.transcript, partsUpTo_congr fun order _ _ ↦ hsame order]
    · rw [hsame]
      exact hwithin.opened hopen last hlast

/-- A transaction on one session, if there is one. -/
theorem Accounted.of_session {computation : Transaction Unit} {database : Database}
    {supply : ℕ → Uuid} (haccounted : Accounted database) (sessionId : Uuid)
    (hsound : Sound database)
    (hfound : ∀ thread, Represents database thread → thread.session.id = sessionId →
      Ensures computation ⟨database, supply⟩
        (fun _ final ↦ ∃ next, Carries database final.toDatabase thread next) fun _ ↦ True)
    (habsent : (∀ session ∈ database.sessions, session.id ≠ sessionId) →
      Ensures computation ⟨database, supply⟩ (fun _ final ↦ final.toDatabase = database)
        fun _ ↦ True) : Accounted (commit computation database supply) := by
  by_cases hsession : ∃ session ∈ database.sessions, session.id = sessionId
  · refine haccounted.of_carries hsound hsession fun thread hrepresents hid ↦ ?_
    exact commit_of_ensures (fun after ↦ ∃ next, Carries database after thread next)
      ((hfound thread hrepresents hid).mono (fun _ _ hnext ↦ hnext)
        fun _ _ ↦ ⟨thread, .refl hrepresents⟩)
  · have hnone := habsent fun session hmem hid ↦ hsession ⟨session, hmem, hid⟩
    have hsame : commit computation database supply = database :=
      commit_of_ensures (· = database) (hnone.mono (fun _ _ heq ↦ heq) fun _ _ ↦ rfl)
    rw [hsame]
    exact haccounted

/-- A change of the row of a finished run that keeps its progress. -/
theorem Carries.updateIdle {database : Database} {thread : Thread} {run : Run}
    {change : Change Run.id} (hrepresents : Represents database thread) (hrun : run ∈ database.runs)
    (hsession : run.sessionId = thread.session.id) (hidle : run.status.inFlight = false)
    (hidentity : (change.apply run).sessionId = run.sessionId)
    (hprogress : (change.apply run).progress = run.progress) :
    Carries database { database with runs := database.runs.modify run.id change } thread thread := by
  have hreplaces : Table.Replaces database.runs (database.runs.modify run.id change) run
      (change.apply run) := .modify hrun
  have hstatus : (change.apply run).status = run.status := congrArg Run.Progress.status hprogress
  have hmark : (change.apply run).watermark = run.watermark :=
    congrArg Run.Progress.watermark hprogress
  have hannounced : (change.apply run).lastOrder = run.lastOrder :=
    congrArg Run.Progress.lastOrder hprogress
  have hid : (change.apply run).id = run.id := hreplaces.key_eq
  refine ⟨hrepresents.updateIdle hrun hidle hidentity hstatus, rfl,
    ⟨fun _ _ ↦ Iff.rfl, fun _ _ ↦ Iff.rfl, fun row hrow ↦ ?_⟩, ?_, ?_, fun _ _ _ _ ↦ rfl⟩
  · exact hreplaces.mem_iff_of_frame hrun (fun run : Run ↦ run.sessionId ≠ thread.session.id)
      (not_not.mpr hsession) (not_not.mpr (hidentity.trans hsession)) hrow
  · intro old hold _ htold hwithin later hlater hlaterId
    rcases (hreplaces.mem_iff later).mp hlater with rfl | ⟨hbefore, -⟩
    · have hsame : old = run :=
        Table.eq_of_key_eq hold hrun (hlaterId.symm.trans hid)
      subst hsame
      refine ⟨⟨hmark ▸ htold.floor, fun order hlow hhigh ↦ ?_, ?_⟩, fun hopen ↦ ?_, fun hfinished ↦ ?_⟩
      · rw [hid]
        exact htold.present order hlow (hmark ▸ hhigh)
      · rw [hid, hmark]
        exact htold.transcript
      · rw [hid, hmark, hannounced]
        exact hwithin.opened (hstatus ▸ hopen)
      · rw [hmark, hannounced]
        exact hwithin.ended (hstatus ▸ hfinished)
    · have hsame : later = old := Table.eq_of_key_eq hbefore hold hlaterId
      exact hsame ▸ ⟨htold, hwithin⟩
  · intro later hlater hlaterSession
    rcases (hreplaces.mem_iff later).mp hlater with rfl | ⟨hbefore, -⟩
    · exact Or.inl ⟨run, hrun, hid.symm, hsession⟩
    · exact Or.inl ⟨later, hbefore, rfl, hlaterSession⟩

/-- A change of the row of a run that keeps its progress. -/
theorem Accounted.updateRun {database : Database} {supply : ℕ → Uuid} {runId : Uuid}
    {change : Change Run.id} (haccounted : Accounted database) (hsound : Sound database)
    (hidentity : ∀ run, (change.apply run).identity = run.identity)
    (hprogress : ∀ run, (change.apply run).progress = run.progress)
    (hcandidate : ∀ run, (change.apply run).candidateTombstoneId = run.candidateTombstoneId) :
    Accounted (commit (Transcript.updateRun runId change) database supply) := by
  change Accounted { database with runs := database.runs.modify runId change }
  cases hfind : database.runs.find runId with
  | none =>
    rw [Table.modify_of_find_none hfind]
    exact haccounted
  | some run =>
    obtain ⟨hrun, rfl⟩ := Table.find_eq_some_iff.mp hfind
    have hsession : (change.apply run).sessionId = run.sessionId :=
      congrArg Run.Identity.sessionId (hidentity run)
    have hstatus : (change.apply run).status = run.status :=
      congrArg Run.Progress.status (hprogress run)
    refine haccounted.of_carries hsound (hsound.runs run hrun) fun thread hrepresents hid ↦ ?_
    cases hflight : run.status.inFlight with
    | false =>
      exact ⟨thread, Carries.updateIdle hrepresents hrun hid.symm hflight hsession (hprogress run)⟩
    | true =>
      obtain ⟨current, hcurrent, rfl⟩ := hrepresents.current_of_inFlight hrun hid hflight
      have hcontinued : Continued ⟨database, supply⟩ thread current [] current.run.progress _ _ _ :=
        continued_of_updateRun change hrepresents hcurrent (hidentity _) (hprogress _)
          (by rw [hstatus, hflight]) (hcandidate _)
      have hturn := hrepresents.isCurrent current hcurrent
      exact Proceeds.carries (by exact hrepresents) hcurrent ⟨_, _, hcontinued⟩ rfl
        fun hwithin ↦ hwithin.opened hturn.not_finished

/-- A run that is broken for a reason. -/
theorem Accounted.breakFor {database : Database} {supply : ℕ → Uuid} {runId : Uuid} {reason : Text}
    {now : ℤ} (haccounted : Accounted database) (hsound : Sound database) :
    Accounted (commit (EngineOutputService.breakFor runId reason now) database supply) := by
  cases hfind : database.runs.find runId with
  | none =>
    refine commit_of_ensures _ ?_
    simp only [EngineOutputService.breakFor, ensures_bind, ensures_getRun]
    rw [hfind]
    exact haccounted
  | some run =>
    obtain ⟨hrun, rfl⟩ := Table.find_eq_some_iff.mp hfind
    refine haccounted.of_carries hsound (hsound.runs run hrun) fun thread hrepresents hid ↦ ?_
    cases hflight : run.status.inFlight with
    | false =>
      have hfinished : run.status = .finished := by
        cases hstatus : run.status with
        | finished => rfl
        | pending | running | finishing => rw [hstatus] at hflight; cases hflight
      refine commit_of_ensures (fun after ↦ ∃ next, Carries database after thread next) ?_
      simp only [EngineOutputService.breakFor, ensures_bind, ensures_getRun]
      rw [hfind]
      dsimp only
      rw [ensures_bind, ensures_updateRun, Transcript.breakRun, if_pos hfinished]
      exact ⟨thread, Carries.updateIdle hrepresents hrun hid.symm hflight rfl rfl⟩
    | true =>
      obtain ⟨current, hcurrent, rfl⟩ := hrepresents.current_of_inFlight hrun hid hflight
      refine commit_of_ensures (fun after ↦ ∃ next, Carries database after thread next) ?_
      have hbroken : Ensures (EngineOutputService.breakFor current.run.id reason now)
          ⟨database, supply⟩ (fun _ final ↦ Breaks _ thread current final) fun _ ↦ False :=
        breakFor_ensures (by exact hrepresents) hcurrent
      exact hbroken.mono
        (fun _ _ hbreaks ↦ Breaks.carries (by exact hrepresents) hcurrent hbreaks)
        fun _ hfailed ↦ hfailed.elim

/-- A new session. -/
theorem Accounted.createSession {database : Database} {supply : ℕ → Uuid} {userId : Uuid} {now : ℤ}
    (haccounted : Accounted database) :
    Accounted (commit (Transcript.createSession userId now) database supply) := by
  refine commit_of_ensures _ ?_
  simp only [Transcript.createSession, ensures_bind, ensures_uuid4, ensures_insertSession]
  cases hinsert : database.sessions.insert
      { id := supply 0
        userId := userId
        latestEntryId := none
        committedTombstoneId := none
        updatedAt := now } with
  | none => exact haccounted
  | some sessions =>
    have hmem := (Table.mem_insert hinsert).1
    intro run hrun
    obtain ⟨thread, hrepresents, hrest⟩ := haccounted run hrun
    have hkept : thread.session ∈ sessions :=
      (hmem thread.session).mpr (Or.inr hrepresents.session_mem)
    exact ⟨thread, ⟨hkept, hrepresents.latest, hrepresents.holds, hrepresents.linked,
      hrepresents.linked_settled, hrepresents.committed, hrepresents.runs, hrepresents.idle,
      hrepresents.isCurrent⟩, hrest⟩

/-- Every transaction whose announcements cover the buffer keeps the runs to them. -/
theorem Accounted.step {codec : Codec} {database : Database} (haccounted : Accounted database)
    (hsound : Sound database) (event : Event) (hcovers : event.operation.Covers database) :
    Accounted (step codec database event) := by
  obtain ⟨operation, now, supply⟩ := event
  cases operation with
  | create userId => exact haccounted.createSession
  | send userId sessionId userInput modelId =>
    refine haccounted.of_session sessionId hsound ?_ fun habsent ↦ ?_
    · rintro thread hrepresents rfl
      change Ensures (SendService.send _ _ _ _ _ _ >>= fun _ ↦ pure ()) _ _ _
      rw [ensures_bind]
      refine (send_ensures hrepresents).mono ?_ fun _ _ ↦ trivial
      rintro _ final ⟨run, session, user, -, -, -, -, hstarted⟩
      exact ⟨_, Started.carries (by exact hrepresents) hstarted⟩
    · change Ensures (SendService.send _ _ _ _ _ _ >>= fun _ ↦ pure ()) _ _ _
      rw [ensures_bind, SendService.send, ensures_bind, SendService.loadOwned, ensures_bind,
        ensures_getSession, Table.find_eq_none_iff.mpr habsent]
      trivial
  | produced runId => exact haccounted.updateRun hsound (fun _ ↦ rfl) (fun _ ↦ rfl) fun _ ↦ rfl
  | acknowledge sessionId messageId =>
    refine haccounted.of_session sessionId hsound ?_ fun habsent ↦ hsound.ensures_absent habsent
    rintro thread hrepresents rfl
    exact (acknowledge_ensures hrepresents).mono
      (fun _ _ hkeeps ↦ KeepsAlive.carries (by exact hrepresents) hkeeps) fun _ hraised ↦ hraised
  | partialResponse sessionId order kind text pressure messageId =>
    refine haccounted.of_session sessionId hsound ?_ fun habsent ↦ hsound.ensures_absent habsent
    rintro thread hrepresents rfl
    exact (partialResponse_ensures hrepresents).mono
      (fun _ _ hreceives ↦ Receives.carries (by exact hrepresents) hreceives) fun _ _ ↦ trivial
  | ping sessionId =>
    refine haccounted.of_session sessionId hsound ?_ fun habsent ↦ hsound.ensures_absent habsent
    rintro thread hrepresents rfl
    exact (ping_ensures hrepresents).mono
      (fun _ _ hkeeps ↦ KeepsAlive.carries (by exact hrepresents) hkeeps) fun _ hraised ↦ hraised
  | finish sessionId lastOrder messageId =>
    refine haccounted.of_session sessionId hsound ?_ fun habsent ↦ hsound.ensures_absent habsent
    rintro thread hrepresents rfl
    refine (finish_ensures hrepresents).mono ?_ fun _ hraised ↦ hraised
    rintro _ _ (⟨rfl, -⟩ | ⟨current, hcurrent, hmine, hfinishes⟩)
    · exact ⟨thread, .refl hrepresents⟩
    · have hturn := hrepresents.isCurrent current hcurrent
      refine Finishes.carries (by exact hrepresents) hcurrent hfinishes ?_
      intro last hlast hfloor hbelow hnone
      exact hcovers last hlast hfloor current.run hturn.run_mem hturn.session hturn.inFlight hmine
        hbelow hnone
  | error sessionId messageId text =>
    refine haccounted.of_session sessionId hsound ?_ fun habsent ↦ hsound.ensures_absent habsent
    rintro thread hrepresents rfl
    refine (error_ensures hrepresents).mono ?_ fun _ hraised ↦ hraised
    rintro _ _ (⟨rfl, -⟩ | ⟨current, hcurrent, -, hbreaks⟩)
    · exact ⟨thread, .refl hrepresents⟩
    · exact Breaks.carries (by exact hrepresents) hcurrent hbreaks
  | abortAndBreak runId => exact haccounted.breakFor hsound
  | breakRun runId reason => exact haccounted.breakFor hsound

/-! ### Runs of the system -/

/-- Every `finish` that is accepted covers the buffer when it comes. -/
def CoversAll (codec : Codec) : Database → List Event → Prop
  | _, [] => True
  | database, event :: rest =>
    event.operation.Covers database ∧ CoversAll codec (step codec database event) rest

/-- A run keeps to the order that its accepted `finish` announced. -/
structure WithinLast (database : Database) (session : Session) (run : Run) : Prop where
  /-- The watermark does not exceed the announced order. -/
  below : ∀ last ∈ run.lastOrder, run.watermark ≤ last
  /-- The parts up to the watermark are appended, and no others. -/
  appended : transcriptOf database session run.id =
    foldParts (partsUpTo database.buffer run.id run.watermark)
  /-- The run is finished at the announced order. -/
  ended : run.status = .finished → run.lastOrder = some run.watermark

/-- The runs keep to their announcements. -/
theorem Accounted.execute {codec : Codec} {database : Database} {events : List Event}
    (haccounted : Accounted database) (hsound : Sound database)
    (hcovers : CoversAll codec database events) : Accounted (execute codec database events) := by
  induction events generalizing database with
  | nil => exact haccounted
  | cons event rest ih =>
    exact ih (haccounted.step hsound event hcovers.1)
      (hsound.of_stepped (step_stepped hsound event)) hcovers.2

/-- What the tables say about a run that keeps to its announcement. -/
theorem Accounted.withinLast {database : Database} {run : Run} (haccounted : Accounted database)
    (hrun : run ∈ database.runs) :
    ∃ session ∈ database.sessions, session.id = run.sessionId ∧ WithinLast database session run := by
  obtain ⟨thread, hrepresents, hid, htold, hwithin⟩ := haccounted run hrun
  refine ⟨_, hrepresents.session_mem, hid, fun last hlast ↦ ?_, ?_, hwithin.ended⟩
  · by_cases hfinished : run.status = .finished
    · rw [hwithin.ended hfinished, Option.mem_def, Option.some_inj] at hlast
      exact hlast.le
    · exact (hwithin.opened hfinished last hlast).1.le
  · rw [hrepresents.transcriptOf_eq, htold.transcript, foldParts]

/-- In every run of the system in which every accepted `finish` covers the buffer, the runs take the
parts up to their announced orders and are finished exactly there. -/
theorem withinLast_of_covers (codec : Codec) (events : List Event)
    (hcovers : CoversAll codec .empty events) (run : Run)
    (hrun : run ∈ (execute codec .empty events).runs) :
    ∃ session ∈ (execute codec .empty events).sessions,
      session.id = run.sessionId ∧ WithinLast (execute codec .empty events) session run := by
  have hempty : Accounted .empty := fun _ hnone ↦ absurd hnone Table.not_mem_empty
  exact (hempty.execute sound_empty hcovers).withinLast hrun

/-! ### A part behind the end -/

/-- A run whose parts with the orders 0 and 2 arrive before its end at the order 1 is announced, and
the missing part after that. -/
def behindEnd : List Event :=
  [⟨.create 1, 0, countFrom 10⟩,
    ⟨.send 1 10 "hi".toList (some 5), 0, countFrom 20⟩,
    ⟨.partialResponse 10 0 .message "a".toList none none, 1, countFrom 30⟩,
    ⟨.partialResponse 10 2 .message "c".toList none none, 2, countFrom 40⟩,
    ⟨.finish 10 (some 1) none, 3, countFrom 50⟩,
    ⟨.partialResponse 10 1 .message "b".toList none none, 4, countFrom 60⟩]

/-- The part behind the end is appended, and the run is finished past its end. -/
theorem withinLast_counterexample :
    ((execute mute .empty behindEnd).runs.find 21).map
        (fun run ↦ (run.status, run.lastOrder, run.watermark)) = some (.finished, some 1, 2) ∧
      ((execute mute .empty behindEnd).entries.rows.filter fun entry ↦ entry.runId = some 21).map
        Entry.text = ["abc".toList] := by
  decide +kernel

/-- A run whose end is announced at its last part. -/
def atEnd : List Event :=
  [⟨.create 1, 0, countFrom 10⟩,
    ⟨.send 1 10 "hi".toList (some 5), 0, countFrom 20⟩,
    ⟨.partialResponse 10 1 .message "b".toList none none, 2, countFrom 40⟩,
    ⟨.finish 10 (some 1) none, 3, countFrom 50⟩,
    ⟨.partialResponse 10 0 .message "a".toList none none, 4, countFrom 60⟩]

/-- The run that is finished then. -/
def endedRun : Run where
  id := 21
  sessionId := 10
  messageId := 20
  userEntryId := 22
  modelId := 5
  status := .finished
  watermark := 1
  lastOrder := some 1
  lastEventAt := 4
  finishAt := none
  errorText := none
  candidateTombstoneId := none
  totalContext := none
  usedContext := none
  createdAt := 0
  updatedAt := 4

theorem withinLast_of_covers_atEnd :
    ∃ session ∈ (execute mute .empty atEnd).sessions,
      session.id = endedRun.sessionId ∧ WithinLast (execute mute .empty atEnd) session endedRun := by
  have hrun : endedRun ∈ (execute mute .empty atEnd).runs.rows := by decide +kernel
  have hcovers : CoversAll mute .empty atEnd := by
    have hmissing : ∀ run ∈ (execute mute .empty (atEnd.take 3)).runs.rows,
        (execute mute .empty (atEnd.take 3)).buffer.find (run.id, 1 + 1) = none := by
      decide +kernel
    refine ⟨trivial, trivial, trivial, ?_, trivial, trivial⟩
    intro last hlast _ run hmem _ _ _ _ _
    cases hlast
    exact hmissing run hmem
  exact withinLast_of_covers mute atEnd hcovers endedRun hrun

end Ads.Transcript
