import Converse.Link.Service
import Converse.Proofs.Link.Relaying
import Converse.Proofs.Reply.RoundTrip
import Converse.Proofs.Talk.Naming
import Converse.Proofs.Talk.Recording

/-
  Where the times and the arguments come from that a session holds.

  Times come from the clock and arguments from deliveries, and a session passes both on as they are. So, if
  the clock shows 64-bit integers and arguments come in the order of their names, which is how the links of a
  service bring them (`Network.sound_transport`), all that a session holds or lets out is `Sound`.
  `recorded_course` is the result: whatever the course, each state and each notice is read from its text as it
  was.
-/

namespace Converse

open Json (FitsLong)

/-! ## What is delivered -/

/-- Arguments come in the order of their names, each name once. -/
def Delivery.Sound (d : Delivery) : Prop := ∀ e, d = .event e → (Json.object e.arguments).Sorted

theorem Delivery.sound_event {e : Reply.Event} (h : (Json.object e.arguments).Sorted) : (event e).Sound := by
  intro e' he
  cases he
  exact h

theorem Delivery.sound_closed (ending : Ending) : (closed ending).Sound := fun _ he => nomatch he

/-- What comes of a frame is sound, whatever its data. -/
theorem Delivery.sound_ofFrame (f : Reply.Frame) : (ofFrame f).Sound := by
  unfold ofFrame
  split
  · next hf => exact sound_event (Reply.fit_of_event hf).sorted
  · exact fun _ he => nomatch he

def Feed.Sound (f : Feed) : Prop := ∀ d, .deliver d ∈ f.items → d.Sound

theorem Feed.sound_ofDeliveries {ds : List Delivery} (h : ∀ d ∈ ds, d.Sound) (hangs : Bool) :
    (ofDeliveries ds hangs).Sound := by
  intro d hd
  obtain ⟨e, he, hed⟩ := List.mem_map.mp hd
  cases hed
  exact h d he

/-- A fetch gives something of the feed and leaves the rest. -/
theorem Feed.Sound.fetch {f : Feed} (h : f.Sound) :
    f.fetch.2.1.Sound ∧ ∀ d, f.fetch.1 = .delivery d → d.Sound := by
  obtain ⟨items, hangs⟩ := f
  induction items with
  | nil => exact ⟨h, fun d hd => by cases hangs <;> cases hd⟩
  | cons item items ih =>
    have hrest : Feed.Sound ⟨items, hangs⟩ := fun d hd => h d (List.mem_cons_of_mem _ hd)
    cases item with
    | deliver d =>
      refine ⟨hrest, fun d' hd => ?_⟩
      cases hd
      exact h d List.mem_cons_self
    | fire => exact ih hrest

def Opening.Sound (o : Opening) : Prop := ∀ feed, o = .accepted feed → feed.Sound

structure Transport.Sound (t : Transport) : Prop where
  openings : ∀ o ∈ t.openings, o.Sound
  afterwards : t.afterwards.Sound

theorem Transport.Sound.next {t : Transport} (h : t.Sound) : t.next.1.Sound ∧ t.next.2.Sound := by
  obtain ⟨openings, afterwards⟩ := t
  cases openings with
  | nil => exact ⟨h.afterwards, h⟩
  | cons o rest =>
    obtain ⟨ho, hrest⟩ := List.forall_mem_cons.mp h.openings
    exact ⟨ho, hrest, h.afterwards⟩

/-! ## The links of a service -/

theorem Arrival.sound_delivery (a : Arrival) : a.delivery.Sound := by
  cases a with
  | accepted => exact fun _ he => nomatch he
  | frame f => exact Delivery.sound_ofFrame f
  | ended => exact Delivery.sound_closed .normal
  | failed t => exact Delivery.sound_closed _

theorem Reception.sound_feed (n : Reception) : n.feed.Sound := by
  have hfront : ∀ d ∈ (Relay.front n.arrivals).map Arrival.delivery, d.Sound :=
    List.forall_mem_map.mpr fun a _ => a.sound_delivery
  rcases n.feed_deliveries with h | ⟨ds, hds, h⟩
  · have hend := Delivery.sound_closed (Relay.ending n.arrivals)
    rw [h]
    refine Feed.sound_ofDeliveries ?_ false
    exact List.forall_mem_append.mpr ⟨hfront, List.forall_mem_singleton.mpr hend⟩
  · rw [h]
    exact Feed.sound_ofDeliveries (fun d hd => hfront d (hds.subset hd)) _

/-- Whatever the server answers, what the links of a service deliver is sound. -/
theorem Network.sound_transport (n : Network) (s : Service) : (n.transport s).Sound := by
  have haccepted (r : Reception) : (Opening.accepted r.feed).Sound := by
    intro feed hf
    cases hf
    exact r.sound_feed
  unfold transport
  split
  · exact ⟨fun _ h => (nomatch h), fun _ h => (nomatch h)⟩
  · split
    · exact ⟨fun _ h => (nomatch h), haccepted _⟩
    · exact ⟨List.forall_mem_map.mpr fun a _ => haccepted _, haccepted _⟩

/-! ## Runs and messages -/

theorem ToolRun.Sound.finish {t : ToolRun} (h : t.Sound) (success : Bool) (summary : Option String) :
    (t.finish success summary).Sound := h

/-- A reply that is finished has the tools that it is given. -/
theorem Message.sound_finish {m : Message} {runs : List ToolRun} (hm : FitsLong m.timestamp)
    (hr : ∀ t ∈ runs, t.Sound) : (m.finish runs).Sound := by
  refine ⟨hm, ?_⟩
  unfold finish toolList
  split
  · exact fun _ h => nomatch h
  · exact hr

/-- The run that ends is one of the runs, and no run gets other arguments. -/
theorem Toolbox.sound_finish {b : Toolbox} {tool : String} {success : Bool} {summary : Option String}
    {r : ToolRun × Toolbox} (h : ∀ t ∈ b.runs, t.Sound) (hr : b.finish tool success summary = some r) :
    r.1.Sound ∧ ∀ t ∈ r.2.runs, t.Sound := by
  obtain ⟨before, t, after, hruns, -, rfl⟩ := finish_eq_some hr
  obtain ⟨hbefore, hrest⟩ := List.forall_mem_append.mp (hruns ▸ h)
  obtain ⟨ht, hafter⟩ := List.forall_mem_cons.mp hrest
  have hend := ht.finish success summary
  exact ⟨hend, List.forall_mem_append.mpr ⟨hbefore, List.forall_mem_cons.mpr ⟨hend, hafter⟩⟩⟩

namespace Session

/-! ## The links -/

/-- What is still to be delivered is sound, over the link under way and over those to be opened. -/
structure Supplied (s : Session) : Prop where
  transport : s.transport.Sound
  link : ∀ l, s.phase.link? = some l → l.feed.Sound

theorem Supplied.quiet {s : Session} (h : s.Supplied) {d : Deed} (hd : d.isQuiet = true) :
    (s.enact d).Supplied := by
  obtain ⟨ht, -, hl⟩ := supply_quiet (s := s) hd
  exact ⟨ht ▸ h.transport, fun l hl' => h.link l (hl l hl')⟩

theorem Supplied.enact {s : Session} (h : s.Supplied) (d : Deed) : (s.enact d).Supplied := by
  cases d with
  | send text =>
    obtain ⟨ht, -, hp⟩ := supply_send s text
    refine ⟨ht ▸ h.transport.next.2, fun l hl => ?_⟩
    simp only [Session.enact, hp] at hl
    split at hl
    · next feed ho =>
      cases hl
      exact h.transport.next.1 feed ho
    · cases hl
  | step =>
    refine ⟨(supply_step s).1 ▸ h.transport, fun l hl => ?_⟩
    obtain ⟨l', hl', -, rfl⟩ := link?_step hl
    exact (h.link l' hl').fetch.1
  | _ => exact h.quiet rfl

/-! ## What is held and let out -/

/-- All that the session holds and all that it has let out has times and arguments as they come. -/
structure Sound (s : Session) : Prop where
  clock : FitsLong s.mint.now
  draft : ∀ m, s.phase.draft? = some m → FitsLong m.timestamp
  history : ∀ m ∈ s.history, m.Sound
  tools : ∀ t ∈ s.tools.runs, t.Sound
  told : ∀ n ∈ s.journal.notices, n.content.Sound
  published : ∀ p ∈ s.journal.published, p.content.Sound

namespace Sound

variable {s : Session}

theorem remark (h : s.Sound) (r : Remark) : (s.remark r).Sound := { h with }

theorem publish (h : s.Sound) : s.publish.Sound :=
  { h with
    published := List.forall_mem_append.mpr
      ⟨h.published, List.forall_mem_singleton.mpr ⟨h.history, h.tools⟩⟩ }

theorem announce (h : s.Sound) {n : Notice} (hn : n.content.Sound) : (s.announce n).Sound :=
  { h with told := List.forall_mem_append.mpr ⟨h.told, List.forall_mem_singleton.mpr hn⟩ }

theorem leave (h : s.Sound) : s.leave.Sound := { h with draft := fun _ hm => nomatch hm }

theorem dropTools (h : s.Sound) : s.dropTools.Sound := { h with tools := fun _ ht => nomatch ht }

/-- The reply that is kept has the time of its draft and the tools of the turn. -/
theorem keep (h : s.Sound) {draft : Message} (hd : FitsLong draft.timestamp) : (s.keep draft).Sound :=
  { h with
    history := List.forall_mem_append.mpr
      ⟨h.history, List.forall_mem_singleton.mpr (Message.sound_finish hd h.tools)⟩
    tools := fun _ ht => nomatch ht }

theorem rest (h : s.Sound) : s.rest.Sound := { h with }

theorem abort (h : s.Sound) : s.abort.Sound := by
  have hnone := (h.leave.dropTools.remark .turnCancelled).rest.announce (n := .turnCancelled none)
    (Content.sound_empty none)
  unfold Session.abort
  split
  · exact h
  · exact hnone
  · next draft hp =>
    have hd : FitsLong draft.timestamp := h.draft draft (by rw [hp]; rfl)
    split
    · exact hnone
    · exact ((h.leave.keep hd).remark _).rest.announce
        (Content.sound_message (Message.sound_finish hd h.tools))

theorem fail (h : s.Sound) (m : Mishap) : (s.fail m).Sound := by
  have hm : Sound { (s.leave.dropTools.remark .turnFailed) with mishap := some m } :=
    { h.leave.dropTools with }
  exact hm.rest.announce (Content.sound_empty (some m))

theorem complete (h : s.Sound) {draft : Message} (hd : FitsLong draft.timestamp) :
    (s.complete draft).Sound :=
  ((h.leave.keep hd).remark _).rest.announce (Content.sound_message (Message.sound_finish hd h.tools))

theorem startReply (h : s.Sound) (link : Link) (conversation : String) :
    (s.startReply link conversation).Sound := by
  refine announce ?_ (Content.sound_empty none)
  refine { h.dropTools with draft := fun m hm => ?_ }
  cases hm
  exact h.clock

theorem grow (h : s.Sound) {link : Link} {draft : Message} (hp : s.phase = .streaming link draft)
    (content : String) :
    ({ s with phase := .streaming link (draft.append content) }.announce (.delta content)).Sound := by
  refine announce ?_ (Content.sound_empty none)
  refine { h with draft := fun m hm => ?_ }
  cases hm
  exact h.draft draft (by rw [hp]; rfl)

theorem startTool (h : s.Sound) (tool : String) {arguments : Json.Members}
    (ha : (Json.object arguments).Sorted) : (s.startTool tool arguments).Sound := by
  have ht : (ToolRun.start s.freshId tool arguments).Sound := ha
  refine announce (remark ?_ _) (Content.sound_tool ht)
  exact { h with
    tools := List.forall_mem_append.mpr ⟨h.tools, List.forall_mem_singleton.mpr ht⟩ }

theorem finishTool (h : s.Sound) (tool : String) (success : Bool) (summary : Option String) :
    (s.finishTool tool success summary).Sound := by
  unfold Session.finishTool
  split
  · next r hr =>
    obtain ⟨ht, hruns⟩ := Toolbox.sound_finish h.tools hr
    refine announce (remark ?_ _) (Content.sound_tool ht)
    exact { h with tools := hruns }
  · split
    · exact (h.remark _).remark _
    · exact h.remark _

/-- An event is taken in with its arguments as they came. -/
theorem receive (h : s.Sound) {e : Reply.Event} (he : (Json.object e.arguments).Sorted) :
    (s.receive e).Sound := by
  cases hp : s.phase with
  | idle => simpa only [Session.receive, hp] using h.remark .eventIgnored
  | awaiting link =>
    cases e with
    | start conversation => simpa only [Session.receive, hp] using h.startReply link conversation
    | _ => simpa only [Session.receive, hp] using h.fail _
  | streaming link draft =>
    cases e with
    | delta content => simpa only [Session.receive, hp] using h.grow hp content
    | toolStart tool arguments =>
      have ha : (Json.object arguments).Sorted := he
      simpa only [Session.receive, hp] using h.startTool tool ha
    | toolEnd tool success summary =>
      simpa only [Session.receive, hp] using h.finishTool tool success summary
    | stop => simpa only [Session.receive, hp] using h.complete (h.draft draft (by rw [hp]; rfl))
    | _ => simpa only [Session.receive, hp] using h.fail _

theorem close (h : s.Sound) (ending : Ending) : (s.close ending).Sound := by
  cases ending with
  | aborted => exact h.abort
  | normal =>
    simp only [Session.close]
    split
    · exact h
    · exact h.fail _
  | failed failure =>
    simp only [Session.close]
    split
    · exact h
    · exact (h.remark _).fail _

theorem apply (h : s.Sound) {d : Delivery} (hd : d.Sound) : (s.apply d).Sound := by
  unfold Session.apply
  refine publish ?_
  cases d with
  | opened => exact h.remark _
  | dropped _ => exact { h with }
  | event e => exact h.receive (hd e rfl)
  | closed ending => exact h.close ending

theorem fetched (h : s.Sound) (link : Link) : (s.fetched link).Sound := by
  refine { h with draft := fun m hm => h.draft m ?_ }
  cases hp : s.phase with
  | streaming l draft => simpa [Session.fetched, hp, Phase.withLink, Phase.draft?] using hm
  | _ => simp [Session.fetched, hp, Phase.withLink, Phase.draft?] at hm

theorem step (h : s.Sound) (hl : s.Supplied) : s.step.2.Sound := by
  have hs := stepped s
  generalize s.step = r at hs
  cases hs with
  | idle _ => exact h
  | waits _ _ _ _ _ => exact h
  | stopped link _ _ => exact h.apply (Delivery.sound_closed .aborted)
  | interrupted link _ _ _ _ => exact (h.fetched link).apply (Delivery.sound_closed .aborted)
  | ended link _ _ _ => exact ((h.fetched link).remark _).apply (Delivery.sound_closed .normal)
  | delivered link d hlink _ hx => exact (h.fetched link).apply ((hl.link link hlink).fetch.2 d hx)

theorem say (h : s.Sound) (text : String) : (s.say text).Sound := by
  have hm : (Message.user s.freshId s.mint.now text).Sound := ⟨h.clock, fun _ ht => nomatch ht⟩
  refine announce ?_ (Content.sound_message hm)
  exact { h with
    history := List.forall_mem_append.mpr ⟨h.history, List.forall_mem_singleton.mpr hm⟩ }

theorem openLink (h : s.Sound) (q : Question) : (s.openLink q).Sound := by
  unfold Session.openLink
  split
  · exact { h with draft := fun _ hm => nomatch hm }
  · refine fail ?_ _
    exact { h with }

theorem send (h : s.Sound) (text : String) : (s.send text).Sound := by
  unfold Session.send
  refine publish (openLink (say ?_ text) _)
  split
  · exact h
  · exact (h.remark _).abort

theorem stop (h : s.Sound) : s.stop.Sound := by
  unfold Session.stop
  split
  · exact h
  · exact h.abort.publish

theorem clear (h : s.Sound) : s.clear.Sound := by
  refine publish (announce ?_ (Content.sound_empty none))
  exact { h.leave.dropTools with history := fun _ hm => nomatch hm }

end Sound

/-- A deed that sets the clock sets it to a 64-bit integer. -/
def Deed.Sound (d : Deed) : Prop := ∀ now, d = .setClock now → FitsLong now

theorem Sound.enact {s : Session} (h : s.Sound) (hl : s.Supplied) {d : Deed} (hd : d.Sound) :
    (s.enact d).Sound := by
  cases d with
  | setClock now => exact { h with clock := hd now rfl }
  | send text => exact h.send text
  | step => exact h.step hl
  | stop => exact h.stop
  | clear => exact h.clear
  | signalStop => exact { h with }

theorem Sound.enactAll {ds : List Deed} (hds : ∀ d ∈ ds, d.Sound) {s : Session} (h : s.Sound)
    (hl : s.Supplied) : (s.enactAll ds).Sound := by
  induction ds generalizing s with
  | nil => exact h
  | cons d ds ih =>
    obtain ⟨hd, hds⟩ := List.forall_mem_cons.mp hds
    exact ih hds (h.enact hl hd) (hl.enact d)

/-- Only the course itself sets the clock. -/
theorem sound_deeds (s : Session) (op : Operation) : ∀ d ∈ s.deeds op, d.Sound := by
  intro d hd now he
  rcases mem_deeds hd with h | ⟨_, h⟩ | ⟨-, h⟩ | ⟨-, h⟩ | ⟨-, h⟩ <;> cases he.symm.trans h

theorem sound_courseDeeds {ops : List (Int × Operation)} (h : ∀ op ∈ ops, FitsLong op.1) (s : Session) :
    ∀ d ∈ s.courseDeeds ops, d.Sound := by
  induction ops generalizing s with
  | nil => exact fun _ hd => nomatch hd
  | cons o ops ih =>
    obtain ⟨ho, hops⟩ := List.forall_mem_cons.mp h
    refine List.forall_mem_cons.mpr ⟨?_, List.forall_mem_append.mpr ⟨sound_deeds _ o.2, ih hops _⟩⟩
    intro now he
    cases he
    exact ho

theorem sound_create (matching : Matching) (transport : Transport) {mint : Mint}
    (hm : FitsLong mint.now) : (create matching transport mint).Sound where
  clock := hm
  draft _ h := nomatch h
  history _ h := nomatch h
  tools _ h := nomatch h
  told _ h := nomatch h
  published _ h := nomatch h

theorem sound_course (matching : Matching) {transport : Transport} {mint : Mint}
    {ops : List (Int × Operation)} (ht : transport.Sound) (hm : FitsLong mint.now)
    (hops : ∀ op ∈ ops, FitsLong op.1) : ((create matching transport mint).course ops).Sound := by
  have hl : (create matching transport mint).Supplied := ⟨ht, fun _ h => nomatch h⟩
  rw [course_eq_enactAll]
  exact (sound_create matching transport hm).enactAll (sound_courseDeeds hops _) hl

/-- **What is written down is read again as it was.** Times are 64-bit integers, and arguments come in the order
  of their names, as all do that a service delivers. Then, whatever the course, every state that a session
  shows and every notice that it gives comes back from its text with each of its parts, as long as the codes
  in it are kept under their own names, the numbers among arguments are integers of 64 bits, with or without
  sign, and the text is not nested too deep. -/
theorem recorded_course (matching : Matching) {transport : Transport} {mint : Mint}
    {ops : List (Int × Operation)} (ht : transport.Sound) (hm : FitsLong mint.now)
    (hops : ∀ op ∈ ops, FitsLong op.1) :
    let s := (create matching transport mint).course ops
    (∀ p ∈ s.snapshot :: s.journal.published, p.content.Plain → p.toJson.depth ≤ Json.maxDepth →
      Snapshot.decode.ofText p.toJson.compact = .ok p) ∧
    ∀ n ∈ s.journal.notices, n.content.Plain → n.toJson.depth ≤ Json.maxDepth →
      Notice.decode.ofText n.toJson.compact = .ok n := by
  intro s
  have h : s.Sound := sound_course matching ht hm hops
  have hsnapshots : ∀ p ∈ s.snapshot :: s.journal.published, p.content.Sound :=
    List.forall_mem_cons.mpr ⟨⟨h.history, h.tools⟩, h.published⟩
  exact ⟨fun p hp hplain hd => Snapshot.ofText_compact (hsnapshots p hp) hplain hd,
    fun n hn hplain hd => Notice.ofText_compact (h.told n hn) hplain hd⟩

/-- The smallest and the largest number at the latest time, and a message whose link is refused. -/
theorem recorded_course_of_refusal :
    let arguments : Json.Members :=
      [("a", .array [.integer (-9223372036854775808), .null]), ("b", .integer 18446744073709551615)]
    let transport : Transport := ⟨[.accepted (.ofDeliveries
      [.event (.start "c1"), .event (.toolStart "read" arguments), .event (.delta "\"Hi\"\n"),
        .event (.toolEnd "read" true (some "")), .event .stop] false)], .refused "no route"⟩
    let mint : Mint := ⟨fun n => ["u1", "r1", "t1", "u2"][n]?.getD "", 0, 0⟩
    let ops := [(9223372036854775807, .submit "Hello"), (-1, .send "Well?")]
    let s := (create .oldest transport mint).course ops
    let run : ToolRun := ⟨"t1", "read", arguments, .success, some ""⟩
    let p : Snapshot := ⟨some "c1", [.user "u1" 9223372036854775807 "Hello",
      ⟨"r1", .assistant, "\"Hi\"\n", 9223372036854775807, false, some [run]⟩, .user "u2" (-1) "Well?"],
      false, "", [], some ⟨"request failed: no route", .unexpected, true⟩, .idle⟩
    s.snapshot = p ∧ Notice.toolFinished run ∈ s.journal.notices ∧
      Snapshot.decode.ofText p.toJson.compact = .ok p ∧
      Notice.decode.ofText (Notice.toolFinished run).toJson.compact = .ok (.toolFinished run) := by
  intro arguments transport mint ops s run p
  have hs : s.snapshot = p := by decide
  have hn : Notice.toolFinished run ∈ s.journal.notices := by decide
  have hsorted : (Json.object arguments).Sorted := by
    have hlt : ("a" : String) < "b" := by decide
    refine .object (List.pairwise_pair.mpr hlt)
      (List.forall_mem_cons.mpr ⟨.array ?_, List.forall_mem_singleton.mpr (.number _)⟩)
    exact List.forall_mem_cons.mpr ⟨.number _, List.forall_mem_singleton.mpr .null⟩
  have hintegral : (Json.object arguments).Integral := by
    have htop : (Json.integer 18446744073709551615).Integral := .number (by decide)
    refine .object (List.forall_mem_cons.mpr ⟨.array ?_, List.forall_mem_singleton.mpr htop⟩)
    exact List.forall_mem_cons.mpr ⟨.number (by decide), List.forall_mem_singleton.mpr .null⟩
  have hplain : ∀ c : Content, c.runs = [run] → (∀ e ∈ c.mishap, e.kind.Canonical) → c.Plain :=
    fun c hc he => ⟨he, hc ▸ List.forall_mem_singleton.mpr hintegral⟩
  have hfeed : transport.Sound := by
    refine ⟨List.forall_mem_singleton.mpr fun feed hf => ?_, fun _ h => nomatch h⟩
    cases hf
    have hbare : ∀ e : Reply.Event, e.arguments = [] → (Delivery.event e).Sound :=
      fun e he => Delivery.sound_event (he ▸ .object .nil fun _ h => nomatch h)
    refine Feed.sound_ofDeliveries (List.forall_mem_cons.mpr ⟨hbare _ rfl, ?_⟩) false
    refine List.forall_mem_cons.mpr ⟨Delivery.sound_event hsorted, ?_⟩
    refine List.forall_mem_cons.mpr ⟨hbare _ rfl, List.forall_mem_cons.mpr ⟨hbare _ rfl, ?_⟩⟩
    exact List.forall_mem_singleton.mpr (hbare _ rfl)
  have hzero : FitsLong mint.now := by decide
  have hops : ∀ op ∈ ops, FitsLong op.1 := by decide
  obtain ⟨hsnapshot, hnotice⟩ := @recorded_course .oldest transport mint ops hfeed hzero hops
  refine ⟨hs, hn, hsnapshot p (hs ▸ List.mem_cons_self) (hplain _ rfl ?_) (by decide),
    hnotice _ hn (hplain _ rfl fun _ h => nomatch h) (by decide)⟩
  intro e he
  cases he
  exact fun _ h => nomatch h

end Session

end Converse
