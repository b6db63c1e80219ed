import MiniErp.Lib.DeltaLog
import MiniErp.Live.Feed

/-! Whatever a feed went through, what it recovers for a client that held an earlier view leads to
the view it shows. -/
namespace MiniErp.Live
open DeltaLog List
variable {γ : Type} {apply : String → γ → Option γ} {P : LiveView γ → Prop}

/-- Views of one epoch, scope and revision are one view. -/
def Determined (P : LiveView γ → Prop) : Prop :=
  ∀ first second, P first → P second → first.epoch=second.epoch →
    first.scope=second.scope → first.revision=second.revision → first=second

/-- Deltas that lead from one content to another, through views of one epoch and scope. -/
abbrev Chain (apply : String → γ → Option γ) (P : LiveView γ → Prop) (epoch scope : String)
    (last start : Nat × γ) (deltas : List PreparedDelta) : Prop :=
  Leads PreparedDelta.baseRevision PreparedDelta.revision
    (fun delta content => apply delta.patch content)
    (fun point => P ⟨point.2,point.1,epoch,scope⟩) last start deltas

def Labelled (epoch scope : String) (deltas : List PreparedDelta) : Prop :=
  ∀ delta∈deltas, delta.epoch=epoch ∧ delta.scope=scope

section History

/-- The entries lead to the view. -/
structure HistoryOf (apply : String → γ → Option γ) (P : LiveView γ → Prop) (view : LiveView γ)
    (entries : List PreparedDelta) : Prop where
  chain : ∃ start, Chain apply P view.epoch view.scope (view.revision, view.content) start entries
  labelled : Labelled view.epoch view.scope entries

variable {view : LiveView γ} {data : StateFeedData γ}

theorem HistoryOf.suffix {entries rest : List PreparedDelta} (h : HistoryOf apply P view entries)
    (hrest : rest <:+ entries) : HistoryOf apply P view rest := by
  obtain ⟨start,hchain⟩ := h.chain
  exact ⟨hchain.suffix hrest,fun delta hdelta => h.labelled delta (hrest.mem hdelta)⟩

theorem HistoryOf.nil (h : P view) : HistoryOf apply P view [] := ⟨⟨_,.done h⟩,by simp [Labelled]⟩

theorem HistoryOf.append {next : LiveView γ} {entries : List PreparedDelta} {delta : PreparedDelta}
    (h : HistoryOf apply P view entries) (hnext : P next) (hepoch : view.epoch=next.epoch)
    (hscope : view.scope=next.scope) (hlabels : delta.epoch=next.epoch ∧ delta.scope=next.scope)
    (hbase : delta.baseRevision=view.revision) (hrevision : delta.revision=next.revision)
    (happly : apply delta.patch view.content=some next.content) :
    HistoryOf apply P next (entries++[delta]) := by
  obtain ⟨start,hchain⟩ := h.chain
  have hlabelled := h.labelled
  rw [hepoch,hscope] at hchain hlabelled
  constructor
  · rw [← hrevision]
    refine ⟨start,hchain.append hbase happly ?_⟩
    rw [hrevision]
    exact hnext
  · intro entry hentry
    cases mem_append.mp hentry with
    | inl hold => exact hlabelled entry hold
    | inr hdelta => exact mem_singleton.mp hdelta ▸ hlabels

/-- What every state of a run has: a history that leads to the view it shows. -/
structure Recorded (apply : String → γ → Option γ) (P : LiveView γ → Prop)
    (data : StateFeedData γ) : Prop where
  initial : data.view=none → data.history.entries=[]
  history : ∀ view, data.view=some view → HistoryOf apply P view data.history.entries

variable {now : Nat}

theorem recorded_advanceUnchanged {next : StateFeedData γ} {revision : Nat}
    (hempty : ∀ content, apply emptyPatch content=some content)
    (h : Recorded apply P data) (hnext : ∀ view, next.view=some view → P view)
    (hstep : data.advanceUnchanged revision now=.ok next) : Recorded apply P next := by
  unfold StateFeedData.advanceUnchanged at hstep
  cases hview : data.view with
  | none =>
    rw [hview] at hstep
    cases hstep
  | some view =>
    rw [hview] at hstep
    cases hstep
    refine ⟨by simp,fun shown hshown => ?_⟩
    cases hshown
    exact ((h.history view hview).append (hnext _ rfl) rfl rfl ⟨rfl,rfl⟩ rfl rfl
      (hempty _)).suffix (LiveHistory.push_suffix _ _ _)

theorem recorded_replace {next : LiveView γ} {patch : Option String}
    (hsame : Determined P) (h : Recorded apply P data) (hnext : P next)
    (hcorrect : (FeedOp.replace next patch now).Correct apply data) :
    Recorded apply P (data.replace next patch now) := by
  refine ⟨by simp [StateFeedData.replace],fun shown hshown => ?_⟩
  cases hshown
  simp only [StateFeedData.replace]
  cases hview : data.view with
  | none =>
    rw [h.initial hview]
    exact .nil hnext
  | some previous =>
    have hprevious := h.history previous hview
    cases patch with
    | none => exact .nil hnext
    | some patch =>
      dsimp only
      split
      · exact .nil hnext
      · rename_i hlabels
        rw [not_or,not_not,not_not] at hlabels
        split
        · exact (hprevious.append hnext hlabels.1 hlabels.2 ⟨rfl,rfl⟩ rfl rfl
            (hcorrect previous hview hlabels.1 hlabels.2)).suffix (LiveHistory.push_suffix _ _ _)
        · rename_i hrevision
          rw [not_not] at hrevision
          obtain ⟨start,hchain⟩ := hprevious.chain
          -- nothing is recorded, and the two views are one
          rw [← hsame previous next hchain.last_point hnext hlabels.1 hlabels.2 hrevision]
          exact hprevious

theorem recorded_recover {since target : Nat} (h : Recorded apply P data) :
    Recorded apply P { data with history := (data.history.recover since target now).1 } := by
  constructor
  · intro hnone
    have hsuffix := data.history.prune_suffix now
    rw [h.initial hnone] at hsuffix
    exact suffix_nil.mp hsuffix
  · intro view hview
    exact (h.history view hview).suffix (data.history.prune_suffix now)

theorem recorded_run {compact : Bool} {ops : List (FeedOp γ)}
    (hempty : ∀ content, apply emptyPatch content=some content)
    (hcorrect : Run.Along FeedOp.step (FeedOp.Correct apply) (.new compact) ops)
    (hsame : Determined (Published (.new compact) ops)) :
    Recorded apply (Published (.new compact) ops) (Run.run FeedOp.step (.new compact) ops) := by
  have hshown := Run.along_of_reached
    (Q := fun data : StateFeedData γ =>
      ∀ view, data.view=some view → Published (.new compact) ops view)
    fun reached hreached view hview => ⟨reached,hreached,hview⟩
  refine Run.run_invariant (Recorded apply (Published (.new compact) ops)) ?_ ⟨fun _ => rfl,?_⟩
    (hcorrect.and hshown)
  · intro data op next hrecorded hop hstep
    obtain ⟨hop,hnext⟩ := hop
    rw [Run.advance,hstep] at hnext
    cases op with
    | replace view patch now =>
      cases hstep
      exact recorded_replace hsame hrecorded (hnext view rfl) hop
    | advanceUnchanged revision now => exact recorded_advanceUnchanged hempty hrecorded hnext hstep
    | recover since target now =>
      cases hstep
      exact recorded_recover hrecorded
  · intro view hview
    cases hview

end History

section Recover

variable {deltas : List PreparedDelta}

/-- The chain that is recovered from a cursor leads from what was shown there to the end of the
history. -/
theorem leads_recoverChain {Q : Nat × γ → Prop} {last start : Nat × γ} {entries : List PreparedDelta}
    (hsame : ∀ first second, Q first → Q second → first.1=second.1 → first=second)
    (h : Leads PreparedDelta.baseRevision PreparedDelta.revision
      (fun delta content => apply delta.patch content) Q last start entries)
    {cursor : Nat × γ} (hcursor : Q cursor)
    (hrecover : LiveHistory.recoverChain last.1 cursor.1 entries=some deltas) :
    Leads PreparedDelta.baseRevision PreparedDelta.revision
      (fun delta content => apply delta.patch content) Q last cursor deltas := by
  induction h generalizing cursor deltas with
  | done => cases hrecover
  | @step point next entry rest hpoint hbase happly htail ih =>
    rw [LiveHistory.recoverChain] at hrecover
    split at hrecover
    · exact ih hcursor hrecover
    · split at hrecover
      · cases hrecover
      · rename_i hchain
        rw [not_or,not_not] at hchain
        -- the entry starts at the cursor, where the client holds what the feed showed
        have hheld : point=cursor := hsame point cursor hpoint hcursor (hbase ▸ hchain.1)
        rw [hheld] at hbase happly
        split at hrecover
        · rename_i hend
          cases hrecover
          have hlast : (entry.revision, next)=last :=
            hsame _ _ htail.start_point htail.last_point hend
          refine .step hcursor hbase happly ?_
          rw [hlast]
          exact .done htail.last_point
        · obtain ⟨later,hlater,rfl⟩ := Option.map_eq_some_iff.mp hrecover
          exact .step hcursor hbase happly (ih htail.start_point hlater)

theorem recoverChain_subset {target cursor : Nat} {entries : List PreparedDelta}
    (h : LiveHistory.recoverChain target cursor entries=some deltas) : deltas ⊆ entries := by
  induction entries generalizing cursor deltas with
  | nil => cases h
  | cons entry rest ih =>
    rw [LiveHistory.recoverChain] at h
    split at h
    · exact fun delta hdelta => mem_cons_of_mem _ (ih h hdelta)
    · split at h
      · cases h
      · split at h
        · cases h
          simp
        · obtain ⟨later,hlater,rfl⟩ := Option.map_eq_some_iff.mp h
          exact cons_subset_cons entry (ih hlater)

theorem chain_recover {view client : LiveView γ} {history : LiveHistory} {now : Nat}
    (hsame : Determined P)
    (h : HistoryOf apply P view history.entries) (hclient : P client)
    (hepoch : client.epoch=view.epoch) (hscope : client.scope=view.scope)
    (hrecover : (history.recover client.revision view.revision now).2=some deltas) :
    Chain apply P client.epoch client.scope (view.revision, view.content)
      (client.revision, client.content) deltas ∧
    Labelled client.epoch client.scope deltas := by
  have hpruned := h.suffix (history.prune_suffix now)
  obtain ⟨start,hchain⟩ := hpruned.chain
  have hlabelled := hpruned.labelled
  rw [← hepoch,← hscope] at hchain hlabelled
  have hunique : ∀ first second : Nat × γ, P ⟨first.2,first.1,client.epoch,client.scope⟩ →
      P ⟨second.2,second.1,client.epoch,client.scope⟩ → first.1=second.1 → first=second := by
    intro first second hfirst hsecond hrevision
    have heq := hsame _ _ hfirst hsecond rfl rfl hrevision
    exact Prod.ext hrevision (congrArg LiveView.content heq)
  simp only [LiveHistory.recover] at hrecover
  split at hrecover
  · rename_i hcurrent
    cases hrecover
    have hlast : ((client.revision, client.content) : Nat × γ)=(view.revision, view.content) :=
      hunique _ _ hclient hchain.last_point hcurrent
    rw [hlast]
    exact ⟨.done hchain.last_point,by simp [Labelled]⟩
  · split at hrecover
    · cases hrecover
    · refine ⟨leads_recoverChain hunique hchain hclient hrecover,fun delta hdelta => ?_⟩
      exact hlabelled delta (recoverChain_subset hrecover hdelta)

end Recover

section Delivery
variable {epoch scope : String}

variable {cursor : Nat} {deltas : List PreparedDelta}

theorem receive_frame {delta : PreparedDelta} {held content : γ}
    (hlabels : delta.epoch=epoch ∧ delta.scope=scope)
    (happly : apply delta.patch held=some content) :
    receive apply ⟨held,cursor,epoch,scope⟩ (delta.frame cursor) =
      some ⟨content,delta.revision,epoch,scope⟩ := by
  rw [receive,if_pos ⟨hlabels.1,hlabels.2,rfl⟩]
  change (apply delta.patch held).map _=_
  rw [happly]
  rfl

/-- The client takes every frame that changes something, over the deltas that do not. -/
theorem receive_materialFrames {last point : Nat × γ}
    (hempty : ∀ content, apply emptyPatch content=some content)
    (h : Chain apply P epoch scope last point deltas) (hlabelled : Labelled epoch scope deltas)
    (hheld : P ⟨point.2,cursor,epoch,scope⟩) :
    (materialFrames cursor deltas).1.foldlM (receive apply) ⟨point.2,cursor,epoch,scope⟩ =
        some ⟨last.2,(materialFrames cursor deltas).2,epoch,scope⟩ ∧
      P ⟨last.2,(materialFrames cursor deltas).2,epoch,scope⟩ := by
  induction h generalizing cursor with
  | done => exact ⟨rfl,hheld⟩
  | @step point next delta rest hpoint hbase happly htail ih =>
    have hrest : Labelled epoch scope rest :=
      fun entry hentry => hlabelled entry (mem_cons_of_mem delta hentry)
    rw [materialFrames]
    cases hdelta : delta.empty with
    | true =>
      have hpatch : delta.patch=emptyPatch := beq_iff_eq.mp hdelta
      rw [hpatch,hempty] at happly
      rw [Option.some.inj happly] at hheld ⊢
      exact ih hrest hheld
    | false =>
      have hstep : receive apply ⟨point.2,cursor,epoch,scope⟩ (delta.frame cursor)=_ :=
        receive_frame (hlabelled delta mem_cons_self) happly
      obtain ⟨hlater,hlast⟩ := ih hrest htail.start_point
      refine ⟨?_,hlast⟩
      change List.foldlM _ _ (delta.frame cursor::(materialFrames delta.revision rest).1)=_
      rw [foldlM_cons,hstep]
      exact hlater

theorem materialFrames_getLast {delta : PreparedDelta}
    (h : deltas.getLast?=some delta) (hdelta : delta.empty=false) (cursor : Nat) :
    (materialFrames cursor deltas).2=delta.revision := by
  induction deltas generalizing cursor with
  | nil => cases h
  | cons first rest ih =>
    cases rest with
    | nil =>
      have hfirst : first=delta := Option.some.inj h
      simp [materialFrames,hfirst,hdelta]
    | cons second rest =>
      rw [materialFrames]
      split
      · exact ih h cursor
      · exact ih h first.revision

/-- Where the frames stop short of the view, the last delta changes nothing, and its frame brings
the client to the view's revision. -/
theorem receive_checkpoint {last start : Nat × γ}
    {held : γ} (hempty : ∀ content, apply emptyPatch content=some content)
    (h : Chain apply P epoch scope last start deltas) (hlabelled : Labelled epoch scope deltas)
    (hgap : (materialFrames start.1 deltas).2≠last.1) : ∃ delta, deltas.getLast?=some delta ∧
      receive apply ⟨held,cursor,epoch,scope⟩ (delta.frame cursor) =
        some ⟨held,last.1,epoch,scope⟩ := by
  cases hlast : deltas.getLast? with
  | none =>
    rw [getLast?_eq_none_iff.mp hlast] at h hgap
    cases h
    exact absurd rfl hgap
  | some delta =>
    have hrevision := h.revision_getLast hlast
    have hdelta : delta.empty=true := by
      by_contra hmaterial
      rw [Bool.not_eq_true] at hmaterial
      exact hgap ((materialFrames_getLast hlast hmaterial _).trans hrevision)
    have hpatch : delta.patch=emptyPatch := beq_iff_eq.mp hdelta
    refine ⟨delta,rfl,?_⟩
    rw [← hrevision]
    exact receive_frame (hlabelled delta (mem_of_getLast? hlast)) (hpatch ▸ hempty held)

end Delivery

/-- After any run of a feed, a client that holds an earlier view of it is told to resync, or gets
deltas whose patches lead from its view to the one the feed shows; it takes their frames one after
the other, and again holds a view of the feed. -/
theorem recovered_client_shows_view (apply : String → γ → Option γ) (compact : Bool)
    (ops : List (FeedOp γ)) (client view : LiveView γ) (checkpoint : Bool) (now : Nat)
    (hempty : ∀ content, apply emptyPatch content=some content)
    (hcorrect : Run.Along FeedOp.step (FeedOp.Correct apply) (.new compact) ops)
    (hsame : Determined (Published (.new compact) ops))
    (hclient : Published (.new compact) ops client)
    (hview : (Run.run FeedOp.step (.new compact) ops).view=some view) :
    ∃ data delivered, delivery (Run.run FeedOp.step (.new compact) ops) client.epoch
        (some client.revision) client.scope checkpoint now=.ok (data, delivered) ∧
      (delivered.resync=true ∧ delivered.frames=[] ∨ delivered.resync=false ∧
      (∃ deltas, ((Run.run FeedOp.step (.new compact) ops).history.recover client.revision
            view.revision now).2=some deltas ∧
          deltas.foldlM (fun content delta => apply delta.patch content) client.content =
            some view.content) ∧
      ∃ shown, delivered.frames.foldlM (receive apply) client=some shown ∧
        shown.content=view.content ∧ shown.revision=delivered.revision ∧
        Published (.new compact) ops shown ∧ (checkpoint=true → shown=view)) := by
  have hrecorded := (recorded_run hempty hcorrect hsame).history view hview
  have hshown : Published (.new compact) ops view := ⟨ops,List.prefix_refl _,hview⟩
  simp only [delivery,hview]
  split
  · rename_i hlabels
    cases hrecover : ((Run.run FeedOp.step (.new compact) ops).history.recover client.revision
        view.revision now).2 with
    | none => exact ⟨_,_,rfl,.inl ⟨rfl,rfl⟩⟩
    | some deltas =>
      obtain ⟨hchain,hlabelled⟩ :=
        chain_recover hsame hrecorded hclient hlabels.1 hlabels.2 hrecover
      obtain ⟨hframes,hcursor⟩ := receive_materialFrames hempty hchain hlabelled hclient
      have hcurrent : (⟨view.content,view.revision,client.epoch,client.scope⟩ : LiveView γ) =
          view := by
        rw [hlabels.1,hlabels.2]
      dsimp only
      split
      · rename_i hgap
        obtain ⟨last,hlast,hreceive⟩ := receive_checkpoint hempty hchain hlabelled hgap.2
        rw [hlast]
        refine ⟨_,_,rfl,.inr ⟨rfl,⟨deltas,rfl,hchain.foldlM⟩,view,?_,rfl,rfl,hshown,fun _ => rfl⟩⟩
        rw [List.foldlM_append,hframes]
        exact (congrArg (· >>= pure) hreceive).trans (congrArg some hcurrent)
      · rename_i hgap
        refine ⟨_,_,rfl,.inr ⟨rfl,⟨deltas,rfl,hchain.foldlM⟩,_,hframes,rfl,rfl,hcursor,
          fun hcheckpoint => ?_⟩⟩
        have hrevision : (materialFrames client.revision deltas).2=view.revision := by
          by_contra hne
          exact hgap ⟨hcheckpoint,hne⟩
        rw [hrevision]
        exact hcurrent
  · exact ⟨_,_,rfl,.inl ⟨rfl,rfl⟩⟩

/-- A client whose content is the last text it was sent. -/
def lastText (patch content : String) : Option String :=
  some (if patch=emptyPatch then content else patch)

def shortRun : List (FeedOp String) :=
  [.replace ⟨"a",1,"epoch","press"⟩ none 0,.advanceUnchanged 2 10,
    .replace ⟨"b",3,"epoch","press"⟩ (some "b") 20]

theorem published_shortRun {view : LiveView String} (h : Published (.new false) shortRun view) :
    view ∈ [⟨"a",1,"epoch","press"⟩,⟨"a",2,"epoch","press"⟩,⟨"b",3,"epoch","press"⟩] := by
  obtain ⟨reached,hreached,hview⟩ := h
  rw [← mem_inits] at hreached
  simp only [shortRun,List.inits,map_cons,map_nil,mem_cons,not_mem_nil, or_false] at hreached
  obtain rfl | rfl | rfl | rfl := hreached
  · cases hview
  · cases hview
    simp
  · cases hview
    simp
  · cases hview
    simp

theorem recovered_client_shows_view_short_run :
    ∃ data delivered, delivery (Run.run FeedOp.step (.new false) shortRun) "epoch" (some 1) "press"
        true 30=.ok (data, delivered) ∧
      delivered.resync=false ∧
      ∃ shown, delivered.frames.foldlM (receive lastText) ⟨"a",1,"epoch","press"⟩=some shown ∧
        shown=⟨"b",3,"epoch","press"⟩ := by
  have hsame : Determined (Published (.new false) shortRun) := by
    intro first second hfirst hsecond _ _ hrevision
    have hfirst := published_shortRun hfirst
    have hsecond := published_shortRun hsecond
    simp only [List.mem_cons,List.not_mem_nil,or_false] at hfirst hsecond
    obtain rfl | rfl | rfl := hfirst <;> obtain rfl | rfl | rfl := hsecond <;>
      first | rfl | cases hrevision
  have hpatch : ∀ previous : LiveView String,
      some (⟨"a",2,"epoch","press"⟩ : LiveView String)=some previous →
      previous.epoch = "epoch" → previous.scope = "press" →
      lastText "b" previous.content=some "b" := by
    intro previous _ _ _
    rfl
  obtain ⟨data,delivered,hdelivery,hresult⟩ := recovered_client_shows_view lastText false shortRun
    ⟨"a",1,"epoch","press"⟩ ⟨"b",3,"epoch","press"⟩ true 30 (by intro content; rfl)
    ⟨trivial,trivial,hpatch,trivial⟩ hsame ⟨shortRun.take 1,List.take_prefix _ _,rfl⟩ rfl
  cases hresult with
  | inl hresync =>
    cases hdelivery
    cases hresync.1
  | inr hshown =>
    obtain ⟨hresync,_,shown,hframes,_,_,_,hview⟩ := hshown
    exact ⟨data,delivered,hdelivery,hresync,shown,hframes,hview rfl⟩

end MiniErp.Live
