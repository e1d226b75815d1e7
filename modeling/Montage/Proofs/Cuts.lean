import Mathlib.Tactic.Ring
import Montage.Proofs.ValidRuns

/-!
# Cuts are not heard

On exact times, splitting changes nothing of what is played. At every instant a clip that is cut is
followed by one of its two pieces, its heir, which plays the same moment of the source in the same
way, and the heirs of linked clips are linked. Links have to be mutual for that, but partners need
not agree in anything.
-/

namespace Montage

/-! ## What plays at an instant -/

/-- A moment of a source, and how it is played. -/
structure Output where
  source : String
  medium : Medium
  offset : Rat
  volume : Rat
  speed : Rat
  layer : Int32

def Clip.outputAt (clip : Clip Rat) (instant : Rat) : Output :=
  ⟨clip.source, clip.medium, clip.offsetAt instant, clip.volume, clip.speed, clip.layer⟩

/-- The clips of a track that play at an instant. -/
def Track.playing (track : Track Rat) (instant : Rat) : List (Clip Rat) :=
  track.clips.filter (·.span.covers instant)

/-- What plays, under which name, and what it is linked to. -/
structure Voice where
  name : ClipId
  link : Option ClipId
  output : Output

def Clip.voiceAt (clip : Clip Rat) (instant : Rat) : Voice :=
  ⟨clip.id, clip.link, clip.outputAt instant⟩

def Voice.rename (voice : Voice) (heir : ClipId → ClipId) : Voice :=
  ⟨heir voice.name, voice.link.map heir, voice.output⟩

theorem mem_playing {track : Track Rat} {instant : Rat} {clip : Clip Rat} :
    clip ∈ track.playing instant ↔ clip ∈ track.clips ∧ clip.span.covers instant = true :=
  List.mem_filter

theorem covers_iff {span : Span Rat} {instant : Rat} :
    span.covers instant = true ↔ span.start ≤ instant ∧ instant < span.stop := by
  simp [Span.covers]

namespace Timeline

/-- The clips that play at an instant on the track at a position. -/
def playingOn (t : Timeline Rat) (i : Nat) (instant : Rat) : List (Clip Rat) :=
  ((t.tracks[i]?).map (·.playing instant)).getD []

theorem mem_clips_of_playingOn {t : Timeline Rat} {i : Nat} {instant : Rat} {clip : Clip Rat}
    (hclip : clip ∈ t.playingOn i instant) : clip ∈ t.clips := by
  unfold playingOn at hclip
  cases htrack : t.tracks[i]? with
  | none => simp [htrack] at hclip
  | some track =>
      rw [htrack] at hclip
      exact mem_clips.2 ⟨track, List.mem_of_getElem? htrack, (mem_playing.1 hclip).1⟩

/--
At every instant the later timeline plays, track by track, what the first one does, and what a clip
of the first one plays is played by its heir.
-/
structure Replays (heir : Rat → ClipId → ClipId) (t next : Timeline Rat) : Prop where
  map_id_tracks : next.tracks.map Track.id = t.tracks.map Track.id
  voices : ∀ i instant, ((next.playingOn i instant).map (·.voiceAt instant)).Perm
    ((t.playingOn i instant).map fun clip => (clip.voiceAt instant).rename (heir instant))

namespace Replays

variable {t next last : Timeline Rat} {heir heir' : Rat → ClipId → ClipId}

theorem refl (t : Timeline Rat) : t.Replays (fun _ id => id) t where
  map_id_tracks := rfl
  voices i instant := by simp [Voice.rename, Clip.voiceAt]

theorem trans (h : t.Replays heir next) (h' : next.Replays heir' last) :
    t.Replays (fun instant id => heir' instant (heir instant id)) last where
  map_id_tracks := h'.map_id_tracks.trans h.map_id_tracks
  voices i instant := by
    have hfirst := (h.voices i instant).map (·.rename (heir' instant))
    simp only [List.map_map] at hfirst
    refine (h'.voices i instant).trans (hfirst.trans (List.Perm.of_eq ?_))
    exact List.map_congr_left fun clip _ => by simp [Voice.rename, Function.comp_def]

/-- The heir of a clip that plays. -/
theorem exists_piece (h : t.Replays heir next) {i : Nat} {instant : Rat} {clip : Clip Rat}
    (hclip : clip ∈ t.playingOn i instant) :
    ∃ piece ∈ next.playingOn i instant, piece.id = heir instant clip.id ∧
      piece.link = clip.link.map (heir instant) ∧
        piece.outputAt instant = clip.outputAt instant := by
  have hvoice := (h.voices i instant).mem_iff.2 (List.mem_map_of_mem hclip)
  obtain ⟨piece, hpiece, heq⟩ := List.mem_map.1 hvoice
  have hall := Voice.mk.inj heq
  exact ⟨piece, hpiece, hall.1, hall.2.1, hall.2.2⟩

/-- What plays is the same, names and links aside. -/
theorem outputs_perm (h : t.Replays heir next) (i : Nat) (instant : Rat) :
    ((next.playingOn i instant).map (·.outputAt instant)).Perm
      ((t.playingOn i instant).map (·.outputAt instant)) := by
  have houtputs := (h.voices i instant).map Voice.output
  simp only [List.map_map] at houtputs
  exact houtputs

end Replays

/-! ## Links that go both ways -/

/-- Links lead to other clips, which link back. -/
def Mutual (t : Timeline Rat) : Prop :=
  ∀ clip ∈ t.clips, ∀ link, clip.link = some link →
    link ≠ clip.id ∧ ∃ partner ∈ t.clips, partner.id = link ∧ partner.link = some clip.id

/-- A timeline that can be cut: clips stand where they say, links go both ways, names are to come. -/
structure Orderly (t : Timeline Rat) (ids : IdSupply) : Prop where
  inStep : t.InStep
  nodup_tracks : (t.tracks.map Track.id).Nodup
  housed : t.Housed
  answered : t.Mutual
  unnamed : t.Unnamed ids

/-! ## What a split does by names -/

/-- What a clip that is cut goes on as after the cut. -/
def piece (heir : ClipId → ClipId) (moment : Rat) (clip : Clip Rat) : Clip Rat :=
  { rightHalf clip moment (heir clip.id) with link := clip.link.map heir }

/-- The names of the right halves of the clips that are cut; other names stay. -/
def rightName (clips : List (Clip Rat)) (rights : List ClipId) (id : ClipId) : ClipId :=
  (((clips.map Clip.id).zip rights).lookup id).getD id

/-- The clip that plays at an instant, after a split, what the clip of the given name did before. -/
def heir (t : Timeline Rat) (clip : ClipId) (moment ε : Rat) (ids : IdSupply) (instant : Rat)
    (id : ClipId) : ClipId :=
  match (t.split clip moment ε ids).1 with
  | .ok (some (rights, _)) =>
      if moment ≤ instant then rightName ((t.toCut clip moment ε).toOption.getD []) rights id
      else id
  | _ => id

/-- What is cut, strictly inside, and the names of its right pieces. -/
structure CutUp (t : Timeline Rat) (clips : List (Clip Rat)) (moment : Rat)
    (heir : ClipId → ClipId) : Prop where
  mem : ∀ clip ∈ clips, clip ∈ t.clips ∧ clip.start < moment ∧ moment < clip.stop
  nodup : clips.Nodup
  linked : ∀ clip ∈ clips, ∀ link, clip.link = some link → link ∈ clips.map Clip.id
  others : ∀ id, id ∉ clips.map Clip.id → heir id = id
  distinct : ∀ a ∈ clips, ∀ b ∈ clips, a.id ≠ b.id → heir a.id ≠ heir b.id

theorem rightName_of_not_mem {clips : List (Clip Rat)} {rights : List ClipId} {id : ClipId}
    (hid : id ∉ clips.map Clip.id) : rightName clips rights id = id := by
  have hnone : ((clips.map Clip.id).zip rights).lookup id = none := by
    refine List.lookup_eq_none_iff.2 fun entry hentry => ?_
    have hmem := (List.of_mem_zip (a := entry.1) (b := entry.2) hentry).1
    by_contra heq
    exact hid ((eq_of_beq (by simpa using heq) : id = entry.1) ▸ hmem)
  rw [rightName, hnone, Option.getD_none]

/-- The right halves are the pieces under their new names. -/
theorem toCut_cutUp {t : Timeline Rat} {ids : IdSupply} (h : t.Orderly ids) {id : ClipId}
    {moment ε : Rat} {clips : List (Clip Rat)} (hcut : t.toCut id moment ε = .ok clips)
    (hne : clips ≠ []) :
    let rights := rightHalves clips moment ids.next (ids.skip 1).next
    t.CutUp clips moment (rightName clips (rights.map Clip.id)) ∧
      rights = clips.map (piece (rightName clips (rights.map Clip.id)) moment) := by
  intro rights
  have hnames : ids.next ≠ (ids.skip 1).next := fun heq => by
    have hused := h.unnamed.injective _ _ heq
    simp [IdSupply.skip] at hused
  obtain ⟨clip, hclip, _, hclean, hclips⟩ := toCut_spec h.inStep hcut hne
  have hinside := (cutsCleanly_iff.1 hclean).1
  rcases hclips with ⟨hnone, rfl⟩ | ⟨partner, hpartner, hlink, hpartnerClean, rfl⟩
  · refine ⟨⟨by simpa using ⟨hclip, hinside⟩, by simp, by simp [hnone], fun _ => rightName_of_not_mem,
      by simp⟩, ?_⟩
    simp [rights, rightHalves, piece, rightName, hnone, rightHalf]
  · obtain ⟨hother, back, hback, hbackId, hbackLink⟩ := h.answered clip hclip partner.id hlink
    rw [h.inStep.eq_of_id_eq hback hpartner hbackId] at hbackLink
    have hpartnerInside := (cutsCleanly_iff.1 hpartnerClean).1
    have hdiffer : clip ≠ partner := fun heq => hother (congrArg Clip.id heq).symm
    have hfirst : rightName [clip, partner] (rights.map Clip.id) clip.id = ids.next := by
      simp [rightName, rights, rightHalves, rightHalf]
    have hsecond : rightName [clip, partner] (rights.map Clip.id) partner.id = (ids.skip 1).next := by
      have hbeq : (partner.id == clip.id) = false := by simpa using hother
      simp [rightName, rights, rightHalves, rightHalf, List.lookup_cons, hbeq]
    refine ⟨⟨?_, ?_, ?_, fun _ => rightName_of_not_mem, ?_⟩, ?_⟩
    · simpa using ⟨⟨hclip, hinside⟩, hpartner, hpartnerInside⟩
    · simpa using hdiffer
    · simp [hlink, hbackLink]
    · intro a ha b hb hid
      simp only [List.mem_cons, List.not_mem_nil, or_false] at ha hb
      rcases ha with rfl | rfl <;> rcases hb with rfl | rfl
      · exact absurd rfl hid
      · rw [hfirst, hsecond]
        exact hnames
      · rw [hfirst, hsecond]
        exact hnames.symm
      · exact absurd rfl hid
    · simp only [List.map_cons, List.map_nil, piece, hfirst, hsecond, hlink, hbackLink,
        Option.map_some]
      rfl

/-! ## One split -/

theorem covers_cutShort {ids : List ClipId} {moment instant : Rat} {clip : Clip Rat} :
    (cutShort ids moment clip).span.covers instant = true ↔
      clip.start ≤ instant ∧ if clip.id ∈ ids then instant < moment else instant < clip.stop := by
  rw [covers_iff, cutShort]
  split <;> rfl

namespace CutUp

variable {t next : Timeline Rat} {ids : IdSupply} {clips : List (Clip Rat)} {moment : Rat}
  {name : ClipId → ClipId}

theorem mem_iff (hcut : t.CutUp clips moment name) (hstep : t.InStep) {clip : Clip Rat}
    (hclip : clip ∈ t.clips) : clip.id ∈ clips.map Clip.id ↔ clip ∈ clips := by
  constructor
  · intro hid
    obtain ⟨other, hother, heq⟩ := List.mem_map.1 hid
    rwa [hstep.eq_of_id_eq hclip (hcut.mem other hother).1 heq.symm]
  · exact List.mem_map_of_mem

/-- Before the cut, the left halves play what the clips did. -/
theorem playing_before (hcut : t.CutUp clips moment name) (hstep : t.InStep) {track : Track Rat}
    (htrack : track ∈ t.tracks) {instant : Rat} (hbefore : instant < moment) :
    (track.clips.map (cutShort (clips.map Clip.id) moment)).filter (·.span.covers instant) =
      (track.playing instant).map (cutShort (clips.map Clip.id) moment) := by
  rw [List.filter_map, Track.playing]
  refine congrArg _ (List.filter_congr fun clip hclip => ?_)
  have hmem : clip ∈ t.clips := Timeline.mem_clips.2 ⟨track, htrack, hclip⟩
  rw [Function.comp, Bool.eq_iff_iff, covers_cutShort, covers_iff]
  split
  · rename_i hid
    have hinside := (hcut.mem clip ((hcut.mem_iff hstep hmem).1 hid)).2
    exact and_congr_right fun _ => iff_of_true hbefore (lt_trans hbefore hinside.2)
  · rfl

theorem playing_revise (track : Track Rat) (alter : Clip Rat → Clip Rat) (new : List (Clip Rat))
    (instant : Rat) :
    (track.revise (fun _ => true) alter new).playing instant =
      (track.clips.map alter).filter (·.span.covers instant) ++
        new.filter (·.span.covers instant) := by
  have hkeep : track.clips.filter (fun _ => true) = track.clips :=
    List.filter_eq_self.2 fun _ _ => rfl
  rw [Track.playing, ← List.filter_append]
  simp only [Track.revise, hkeep]

/-- From the cut on, the left halves are silent and the clips that are not cut play on. -/
theorem playing_after (track : Track Rat) (ids : List ClipId) {moment instant : Rat}
    (hafter : moment ≤ instant) :
    (track.clips.map (cutShort ids moment)).filter (·.span.covers instant) =
      (track.playing instant).filter (·.id ∉ ids) := by
  have hcovers : track.clips.filter ((·.span.covers instant) ∘ cutShort ids moment) =
      (track.playing instant).filter (·.id ∉ ids) := by
    rw [Track.playing, List.filter_filter]
    refine List.filter_congr fun clip _ => ?_
    rw [Function.comp, Bool.eq_iff_iff, covers_cutShort, Bool.and_eq_true, covers_iff]
    by_cases hid : clip.id ∈ ids
    · simp [hid, not_lt.2 hafter]
    · simp [hid, Clip.span]
  rw [List.filter_map, hcovers]
  refine (List.map_congr_left fun clip hclip => ?_).trans (List.map_id _)
  have hid : clip.id ∉ ids := by simpa using (List.mem_filter.1 hclip).2
  simp [cutShort, hid]

/-- A piece plays, after the cut, what its clip would have played. -/
theorem voiceAt_piece (name : ClipId → ClipId) (clip : Clip Rat) (moment instant : Rat) :
    (piece name moment clip).voiceAt instant = (clip.voiceAt instant).rename name := by
  have hoffset : (piece name moment clip).offsetAt instant = clip.offsetAt instant := by
    simp only [Clip.offsetAt, piece, rightHalf]
    ring
  simp only [Clip.voiceAt, Clip.outputAt, hoffset, Voice.rename]
  rfl

/-- The pieces on a track are those of the clips of the track that are cut. -/
theorem pieces_perm (hcut : t.CutUp clips moment name) (h : t.Orderly ids) {i : Nat}
    {track : Track Rat} (htrack : t.tracks[i]? = some track) :
    ((clips.map (piece name moment)).filter (t.home? · = some i)).Perm
      ((track.clips.filter (·.id ∈ clips.map Clip.id)).map (piece name moment)) := by
  rw [List.filter_map]
  refine List.Perm.map _ ((List.perm_ext_iff_of_nodup (hcut.nodup.filter _) ?_).2 fun clip => ?_)
  · exact ((h.inStep.nodup_ids_track (List.mem_of_getElem? htrack)).of_map _).filter _
  have hhome : t.home? (piece name moment clip) = some i ↔ clip.track = track.id :=
    home?_eq_some_iff h.nodup_tracks htrack
  simp only [List.mem_filter, Function.comp, decide_eq_true_eq, hhome]
  constructor
  · rintro ⟨hclip, hid⟩
    have hmem := (hcut.mem clip hclip).1
    exact ⟨h.housed.mem_clips_track h.nodup_tracks (List.mem_of_getElem? htrack) hmem hid,
      List.mem_map_of_mem hclip⟩
  · rintro ⟨hclip, hid⟩
    have hmem : clip ∈ t.clips := Timeline.mem_clips.2 ⟨track, List.mem_of_getElem? htrack, hclip⟩
    exact ⟨(hcut.mem_iff h.inStep hmem).1 hid,
      h.housed track (List.mem_of_getElem? htrack) clip hclip⟩

/-- Whoever keeps the name keeps what it links to. -/
theorem rename_of_not_mem (hcut : t.CutUp clips moment name) (h : t.Orderly ids) {clip : Clip Rat}
    (hclip : clip ∈ t.clips) (hid : clip.id ∉ clips.map Clip.id) (instant : Rat) :
    (clip.voiceAt instant).rename name = clip.voiceAt instant := by
  have hlink : clip.link.map name = clip.link := by
    cases hlink : clip.link with
    | none => rfl
    | some link =>
        refine congrArg some (hcut.others link fun hlinkId => hid ?_)
        -- What is cut links among itself, and links go both ways.
        obtain ⟨_, partner, hpartner, rfl, hback⟩ := h.answered clip hclip link hlink
        exact hcut.linked partner ((hcut.mem_iff h.inStep hpartner).1 hlinkId) _ hback
  simp only [Voice.rename, Clip.voiceAt, hlink, hcut.others _ hid]

/-- From the cut on, the pieces on a track play where their clips would. -/
theorem pieces_playing (hcut : t.CutUp clips moment name) (h : t.Orderly ids) {i : Nat}
    {track : Track Rat} (htrack : t.tracks[i]? = some track) {instant : Rat}
    (hafter : moment ≤ instant) :
    (((clips.map (piece name moment)).filter (t.home? · = some i)).filter
      (·.span.covers instant)).Perm
        (((track.playing instant).filter (·.id ∈ clips.map Clip.id)).map (piece name moment)) := by
  refine ((hcut.pieces_perm h htrack).filter _).trans (List.Perm.of_eq ?_)
  rw [List.filter_map, List.filter_filter, Track.playing, List.filter_filter]
  refine congrArg _ (List.filter_congr fun clip hclip => ?_)
  rw [Bool.eq_iff_iff, Bool.and_eq_true, Bool.and_eq_true, and_comm, Function.comp, covers_iff,
    covers_iff, decide_eq_true_eq]
  refine and_congr_right fun hid => and_congr_left fun _ => ?_
  have hmem : clip ∈ t.clips := Timeline.mem_clips.2 ⟨track, List.mem_of_getElem? htrack, hclip⟩
  have hstart := (hcut.mem clip ((hcut.mem_iff h.inStep hmem).1 hid)).2.1
  exact iff_of_true hafter (le_of_lt (lt_of_lt_of_le hstart hafter))

/-- Before the cut a track plays what it did. -/
theorem voices_before (hcut : t.CutUp clips moment name) (hstep : t.InStep) {track : Track Rat}
    (htrack : track ∈ t.tracks) {pieces : List (Clip Rat)}
    (hpieces : ∀ half ∈ pieces, half.start = moment) {instant : Rat} (hbefore : instant < moment) :
    ((track.revise (fun _ => true) (cutShort (clips.map Clip.id) moment) pieces).playing
      instant).map (·.voiceAt instant) = (track.playing instant).map (·.voiceAt instant) := by
  have hsilent : pieces.filter (·.span.covers instant) = [] := by
    refine List.filter_eq_nil_iff.2 fun half hhalf hplays => ?_
    have hstart : moment ≤ instant := hpieces half hhalf ▸ (covers_iff.1 hplays).1
    exact not_lt.2 hstart hbefore
  rw [playing_revise, hsilent, List.append_nil, hcut.playing_before hstep htrack hbefore,
    List.map_map]
  refine List.map_congr_left fun clip _ => ?_
  unfold Function.comp cutShort
  split <;> rfl

/-- From the cut on, on each track, the pieces play what their clips would, and the others play on. -/
theorem voices_after (hcut : t.CutUp clips moment name) (h : t.Orderly ids) {i : Nat}
    {track : Track Rat} (htrack : t.tracks[i]? = some track) {instant : Rat}
    (hafter : moment ≤ instant) :
    (((track.revise (fun _ => true) (cutShort (clips.map Clip.id) moment)
      ((clips.map (piece name moment)).filter (t.home? · = some i))).playing instant).map
        (·.voiceAt instant)).Perm
      ((track.playing instant).map fun clip => (clip.voiceAt instant).rename name) := by
  have huncut : ((track.playing instant).filter (·.id ∉ clips.map Clip.id)).map
      (·.voiceAt instant) = ((track.playing instant).filter (·.id ∉ clips.map Clip.id)).map
        fun clip => (clip.voiceAt instant).rename name := by
    refine List.map_congr_left fun clip hclip => ?_
    obtain ⟨hplays, hid⟩ := List.mem_filter.1 hclip
    have hmem : clip ∈ t.clips :=
      Timeline.mem_clips.2 ⟨track, List.mem_of_getElem? htrack, (mem_playing.1 hplays).1⟩
    exact (hcut.rename_of_not_mem h hmem (by simpa using hid) instant).symm
  have hpieces := (hcut.pieces_playing h htrack hafter).map (·.voiceAt instant)
  simp only [List.map_map, Function.comp_def, voiceAt_piece] at hpieces
  rw [playing_revise, List.map_append, playing_after track _ hafter, huncut]
  refine (hpieces.append_left _).trans ?_
  rw [← List.map_append]
  refine List.Perm.map _ (List.perm_append_comm.trans ?_)
  simpa only [decide_not] using
    List.filter_append_perm (fun clip : Clip Rat => clip.id ∈ clips.map Clip.id)
      (track.playing instant)

theorem replays (hcut : t.CutUp clips moment name) (h : t.Orderly ids)
    (hrevision : t.Revision (fun _ => true) (cutShort (clips.map Clip.id) moment)
      (clips.map (piece name moment)) next) :
    t.Replays (fun instant id => if moment ≤ instant then name id else id) next where
  map_id_tracks := hrevision.map_id_tracks
  voices i instant := by
    unfold playingOn
    rw [hrevision.getElem?_tracks]
    cases htrack : t.tracks[i]? with
    | none => rfl
    | some track =>
        simp only [Option.map_some, Option.getD_some]
        rcases lt_or_ge instant moment with hbefore | hafter
        · simp only [not_le.2 hbefore, if_false]
          rw [hcut.voices_before h.inStep (List.mem_of_getElem? htrack) ?_ hbefore]
          · exact List.Perm.of_eq (List.map_congr_left fun clip _ => by
              simp [Voice.rename, Clip.voiceAt])
          · intro half hhalf
            obtain ⟨clip, _, rfl⟩ := List.mem_map.1 (List.mem_filter.1 hhalf).1
            rfl
        · simp only [hafter, if_true]
          exact hcut.voices_after h htrack hafter

/-- What is left after the cut can be cut again. -/
theorem orderly (hcut : t.CutUp clips moment name) (h : t.Orderly ids)
    (hrevision : t.Revision (fun _ => true) (cutShort (clips.map Clip.id) moment)
      (clips.map (piece name moment)) next)
    (hnames : (clips.map (piece name moment)).map Clip.id = ids.upcoming clips.length) :
    next.Orderly (ids.skip clips.length) where
  inStep := hrevision.inStep
  nodup_tracks := hrevision.map_id_tracks ▸ h.nodup_tracks
  housed := hrevision.housed h.housed fun clip => (cutShort_continues _ _ clip).1.track_eq
  answered clip hclip link hlink := by
    rcases hrevision.mem_clips.1 hclip with ⟨old, hold, _, rfl⟩ | hclip
    · have hcontinues := (cutShort_continues (clips.map Clip.id) moment old).1
      rw [hcontinues.link_eq] at hlink
      obtain ⟨hother, partner, hpartner, rfl, hback⟩ := h.answered old hold link hlink
      have hpartnerContinues := (cutShort_continues (clips.map Clip.id) moment partner).1
      rw [hcontinues.id_eq]
      exact ⟨hother, _, hrevision.mem_clips.2 (.inl ⟨partner, hpartner, rfl, rfl⟩),
        hpartnerContinues.id_eq, hpartnerContinues.link_eq.trans hback⟩
    · obtain ⟨old, hold, rfl⟩ := List.mem_map.1 hclip
      obtain ⟨oldLink, holdLink, rfl⟩ := Option.map_eq_some_iff.1 hlink
      have hmem := (hcut.mem old hold).1
      obtain ⟨hother, partner, hpartner, rfl, hback⟩ := h.answered old hmem oldLink holdLink
      have hpartnerCut : partner ∈ clips :=
        (hcut.mem_iff h.inStep hpartner).1 (hcut.linked old hold _ holdLink)
      exact ⟨hcut.distinct partner hpartnerCut old hold hother, piece name moment partner,
        hrevision.mem_clips.2 (.inr (List.mem_map_of_mem hpartnerCut)), rfl,
        congrArg (Option.map name) hback⟩
  unnamed :=
    hrevision.unnamed h.unnamed (fun clip => (cutShort_continues _ _ clip).1.id_eq)
      fun _ hclip => hnames ▸ List.mem_map_of_mem hclip

end CutUp

theorem heir_of_nothing_cut {t : Timeline Rat} {clip : ClipId} {moment ε : Rat} {ids : IdSupply}
    (h : ∀ rights next, (t.split clip moment ε ids).1 ≠ .ok (some (rights, next))) :
    t.heir clip moment ε ids = fun _ id => id := by
  funext instant id
  unfold heir
  split
  · rename_i hsplit
    exact absurd hsplit (h _ _)
  · rfl

/-- The names that a split answers are those of the right halves. -/
theorem split_rights {t next : Timeline Rat} {clip : ClipId} {moment ε : Rat}
    {ids left : IdSupply} {rights : List ClipId} {clips : List (Clip Rat)}
    (hsplit : t.split clip moment ε ids = (.ok (some (rights, next)), left))
    (hcut : t.toCut clip moment ε = .ok clips) :
    rights = (rightHalves clips moment ids.next (ids.skip 1).next).map Clip.id := by
  obtain ⟨found, hfound, _, _, hrights, _⟩ := split_spec hsplit
  obtain rfl := Except.ok.inj (hfound.symm.trans hcut)
  exact hrights

end Timeline

/-! ## Rows of splits -/

namespace Session

/-- A split is not heard, whatever it answers, and what it leaves can be split again. -/
theorem Outcome.replays {s next : Session Rat} {clip : ClipId} {moment : Rat}
    {answer : Except (Refusal Rat) (Answer Rat)}
    (hout : s.Outcome (.split clip moment) answer next) (h : s.timeline.Orderly s.ids) :
    s.timeline.Replays (s.timeline.heir clip moment s.settings.tolerance s.ids) next.timeline ∧
      next.timeline.Orderly next.ids := by
  cases hout with
  | lift hcall | snapBack hcall | drop hcall | move hcall => cases hcall
  | refuse hrefuses =>
      cases hrefuses with
      | place hcall => cases hcall
      | split hsplit =>
          obtain ⟨count, rfl⟩ := Timeline.split_ids hsplit
          rw [Timeline.heir_of_nothing_cut (by simp [hsplit])]
          exact ⟨.refl _, { h with unnamed := h.unnamed.skip count }⟩
  | splitNothing hsplit =>
      obtain ⟨count, rfl⟩ := Timeline.split_ids hsplit
      rw [Timeline.heir_of_nothing_cut (by simp [hsplit])]
      exact ⟨.refl _, { h with unnamed := h.unnamed.skip count }⟩
  | edit hedits =>
      cases hedits with
      | place hcall => cases hcall
      | @split _ _ rights _ _ hsplit =>
          obtain ⟨clips, hcut, hne, hrevision, rfl⟩ := Timeline.split_revision h.inStep hsplit
          obtain ⟨hcutUp, hpieces⟩ := Timeline.toCut_cutUp h hcut hne
          have hnames := Timeline.map_id_rightHalves clips moment s.ids
          have hlength := congrArg List.length hpieces
          rw [List.length_map] at hlength
          have hheir : s.timeline.heir clip moment s.settings.tolerance s.ids =
              fun instant id =>
                if moment ≤ instant then Timeline.rightName clips rights id else id := by
            funext instant id
            simp [Timeline.heir, hsplit, hcut, Except.toOption]
          rw [← Timeline.split_rights hsplit hcut] at hcutUp hpieces
          rw [hlength] at hnames ⊢
          rw [hpieces] at hrevision hnames
          rw [hheir]
          exact ⟨hcutUp.replays h hrevision, hcutUp.orderly h hrevision hnames⟩

/-- The clip that plays at an instant, after a row of splits, what the given one did before. -/
def heir (s : Session Rat) : List (ClipId × Rat) → Rat → ClipId → ClipId
  | [], _, id => id
  | (clip, moment) :: cuts, instant, id =>
      (s.split clip moment).2.heir cuts instant
        (s.timeline.heir clip moment s.settings.tolerance s.ids instant id)

/-- The calls that split clips at moments, one after the other. -/
def splitsAt (cuts : List (ClipId × Rat)) : List (Call Rat) :=
  cuts.map fun cut => .split cut.1 cut.2

theorem run_splits_replays {s : Session Rat} (h : s.timeline.Orderly s.ids)
    (cuts : List (ClipId × Rat)) :
    s.timeline.Replays (s.heir cuts) (s.run (splitsAt cuts)).timeline ∧
      (s.run (splitsAt cuts)).timeline.Orderly (s.run (splitsAt cuts)).ids := by
  induction cuts generalizing s with
  | nil => exact ⟨.refl _, h⟩
  | cons cut cuts ih =>
      obtain ⟨hfirst, hnext⟩ := (s.split_outcome cut.1 cut.2).replays h
      obtain ⟨hrest, hlast⟩ := ih hnext
      exact ⟨hfirst.trans hrest, hlast⟩

/--
However a project is split, each track plays at every instant what it played before, and clips that
played while linked to each other are followed by pieces that play and are linked to each other.
-/
theorem splits_are_not_heard (t : Timeline Rat) (hindex : t.index = .ofTracks t.tracks)
    (hids : (t.clips.map Clip.id).Nodup) (htracks : (t.tracks.map Track.id).Nodup)
    (hhoused : t.Housed) (hmutual : t.Mutual) (library : Library Rat)
    (settings : EditorSettings Rat) (ids : IdSupply) (hfresh : t.Unnamed ids) (observed : Bool)
    (cuts : List (ClipId × Rat)) :
    let s := start t library settings ids observed
    let next := (s.run (splitsAt cuts)).timeline
    next.tracks.map Track.id = t.tracks.map Track.id ∧
      ∀ instant : Rat,
        (∀ i, ((next.playingOn i instant).map (·.outputAt instant)).Perm
          ((t.playingOn i instant).map (·.outputAt instant))) ∧
        ∀ i j, ∀ clip ∈ t.playingOn i instant, ∀ partner ∈ t.playingOn j instant,
          clip.link = some partner.id →
            ∃ piece ∈ next.playingOn i instant, ∃ other ∈ next.playingOn j instant,
              piece.id = s.heir cuts instant clip.id ∧
              piece.outputAt instant = clip.outputAt instant ∧
              other.id = s.heir cuts instant partner.id ∧
              other.outputAt instant = partner.outputAt instant ∧
              piece.link = some other.id ∧ other.link = some piece.id := by
  intro s next
  have horderly : t.Orderly ids :=
    ⟨Timeline.inStep_of_index_eq hindex hids, htracks, hhoused, hmutual, hfresh⟩
  have hreplays : t.Replays (s.heir cuts) next := (run_splits_replays (s := s) horderly cuts).1
  refine ⟨hreplays.map_id_tracks, fun instant => ⟨fun i => hreplays.outputs_perm i instant, ?_⟩⟩
  intro i j clip hclip partner hpartner hlink
  obtain ⟨piece, hpiece, hpieceId, hpieceLink, hpieceOutput⟩ := hreplays.exists_piece hclip
  obtain ⟨other, hother, hotherId, hotherLink, hotherOutput⟩ := hreplays.exists_piece hpartner
  have hback : partner.link = some clip.id := by
    obtain ⟨_, found, hfound, hid, hback⟩ :=
      hmutual clip (Timeline.mem_clips_of_playingOn hclip) partner.id hlink
    rwa [horderly.inStep.eq_of_id_eq hfound (Timeline.mem_clips_of_playingOn hpartner) hid] at hback
  refine ⟨piece, hpiece, other, hother, hpieceId, hpieceOutput, hotherId, hotherOutput, ?_, ?_⟩
  · rw [hpieceLink, hlink, hotherId, Option.map_some]
  · rw [hotherLink, hback, hpieceId, Option.map_some]

/-- A picture, and a sound that is longer and starts later in its source. -/
def looseTracks : List (Track Rat) :=
  [⟨"video-1", .video,
      [⟨"a", "video-1", "media/a.mp4", 0, 8, 0, .video, 1, 2, 0, some "b"⟩]⟩,
    ⟨"av-1", .av, [⟨"b", "av-1", "media/b.wav", 1, 10, 3, .audio, 1, 1 / 2, 0, some "a"⟩]⟩]

/-- Two cuts of the pair, the second of a right half, one that cuts nothing and one that is refused. -/
def looseCuts : List (ClipId × Rat) :=
  [("a", 4), ("xx", 6), ("a", 4), ("a", 1 / 2)]

theorem splits_are_not_heard_loose :
    let t := Timeline.ofTracks "p" looseTracks
    let s := start t .empty .standard .tally false
    let next := (s.run (splitsAt looseCuts)).timeline
    t.Housed ∧ t.Mutual ∧ t.Unnamed .tally ∧
      next.tracks.map (fun track => track.clips.map Clip.id) =
        [["a", "x", "xxxx"], ["b", "xx", "xxx"]] ∧
      (∀ i, ((next.playingOn i 7).map (·.outputAt 7)).Perm
        ((t.playingOn i 7).map (·.outputAt 7))) ∧
      ∃ piece ∈ next.playingOn 0 7, ∃ other ∈ next.playingOn 1 7,
        piece.link = some other.id ∧ other.link = some piece.id := by
  intro t s next
  have hhoused : t.Housed := by
    unfold Timeline.Housed
    decide +kernel
  have hmutual : t.Mutual := by
    simp [Timeline.Mutual, t, Timeline.ofTracks, Timeline.assemble, Timeline.clips, looseTracks]
  have hfresh : t.Unnamed .tally := Timeline.unnamed_tally (by decide +kernel)
  have hall := splits_are_not_heard t rfl (by decide +kernel) (by decide +kernel) hhoused hmutual
    .empty .standard .tally hfresh false looseCuts
  obtain ⟨piece, hpiece, other, hother, _, _, _, _, hlinks⟩ := (hall.2 7).2 0 1
    ⟨"a", "video-1", "media/a.mp4", 0, 8, 0, .video, 1, 2, 0, some "b"⟩ (by decide +kernel)
    ⟨"b", "av-1", "media/b.wav", 1, 10, 3, .audio, 1, 1 / 2, 0, some "a"⟩ (by decide +kernel) rfl
  exact ⟨hhoused, hmutual, hfresh, by decide +kernel, (hall.2 7).1, piece, hpiece, other, hother,
    hlinks⟩

end Session

end Montage
