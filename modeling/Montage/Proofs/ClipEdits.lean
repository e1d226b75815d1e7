import Montage.Proofs.Faultless
import Montage.Proofs.Renaming
import Montage.Proofs.Soundness

/-!
# Edits of clips that are there

Deleting, adjusting and splitting look at the clips that they name and at what these are linked to,
and at nothing else. What such an edit does is therefore the same on every timeline that has the same
clips there.
-/

namespace Montage

/-! ## Edits and their effects -/

/-- An edit of clips that are on the timeline. -/
inductive ClipEdit (α : Type)
  | delete (selection : ClipSet)
  | setVolume (clip : ClipId) (volume : α)
  | setSpeed (clip : ClipId) (speed : α)
  | split (clip : ClipId) (instant : α)

/-- The clips that the edit names. -/
def ClipEdit.named {α : Type} : ClipEdit α → List ClipId
  | .delete selection => selection.toList
  | .setVolume clip _ | .setSpeed clip _ | .split clip _ => [clip]

/-- Makes the edit. A split that has nothing to cut leaves the timeline as it is. -/
def ClipEdit.apply {α : Type} [Scalar α] (edit : ClipEdit α) (t : Timeline α) (ε : α)
    (ids : IdSupply) : Except (Refusal α) (Timeline α) × IdSupply :=
  match edit with
  | .delete selection => ((t.delete selection).map Prod.snd, ids)
  | .setVolume clip volume => (t.setVolume clip volume, ids)
  | .setSpeed clip speed => (t.setSpeed clip speed, ids)
  | .split clip instant =>
      let (cut, left) := t.split clip instant ε ids
      (cut.map fun made => (made.map Prod.snd).getD t, left)

/-- What an edit keeps, how it alters that, and what it makes of names. -/
structure Effect where
  keep : Clip Rat → Bool
  alter : Clip Rat → Clip Rat
  make : IdSupply → List (Clip Rat)

open Timeline

/-- The edit passes its checks, and then has the effect. -/
inductive ClipEdit.Does (t : Timeline Rat) (ε : Rat) : ClipEdit Rat → Effect → Prop
  | delete {selection closed} (h : t.linkClosure selection.toList = .ok closed) :
      Does t ε (.delete selection) ⟨(·.id ∉ closed.toList), fun clip => clip, fun _ => []⟩
  | setVolume {id volume clip} (hvolume : ¬ volume < 0) (h : t.clip? id = some clip) :
      Does t ε (.setVolume id volume)
        ⟨fun _ => true, amend id fun c => { c with volume := volume }, fun _ => []⟩
  | setSpeed {id speed clip} (hspeed : ¬ speed ≤ 0) (h : t.clip? id = some clip)
      (hlink : ∀ link, clip.link = some link → (t.clip? link).isSome) :
      Does t ε (.setSpeed id speed)
        ⟨fun _ => true, retime (clip.id :: clip.link.toList) speed, fun _ => []⟩
  | splitNothing {id instant} (h : t.toCut id instant ε = .ok []) :
      Does t ε (.split id instant) ⟨fun _ => true, fun clip => clip, fun _ => []⟩
  | split {id instant clips} (h : t.toCut id instant ε = .ok clips) (hne : clips ≠ []) :
      Does t ε (.split id instant)
        ⟨fun _ => true, cutShort (clips.map Clip.id) instant,
          fun ids => rightHalves clips instant ids.next (ids.skip 1).next⟩

variable {t t' next : Timeline Rat} {ε : Rat} {edit : ClipEdit Rat} {effect : Effect}
  {ids left : IdSupply} {kind : ClipId → Prop}

theorem ClipEdit.does_of_apply (h : edit.apply t ε ids = (.ok next, left)) :
    ∃ effect, edit.Does t ε effect := by
  obtain ⟨hnext, _⟩ := Prod.mk.inj h
  cases edit with
  | delete selection =>
      cases hclosure : t.linkClosure selection.toList with
      | ok closed => exact ⟨_, .delete hclosure⟩
      | error refusal =>
          rw [apply, Timeline.delete, hclosure] at h
          cases h
  | setVolume id volume =>
      simp only [Timeline.setVolume] at hnext
      split at hnext
      · cases hnext
      rename_i hvalue
      split at hnext
      · cases hnext
      rename_i clip hclip
      exact ⟨_, .setVolume (fun hneg => hvalue (by simp [hneg])) hclip⟩
  | setSpeed id speed =>
      simp only [Timeline.setSpeed] at hnext
      split at hnext
      · cases hnext
      rename_i hvalue
      split at hnext
      · cases hnext
      rename_i clip hclip
      refine ⟨_, .setSpeed (fun hneg => hvalue (by simp [hneg])) hclip fun link hlink => ?_⟩
      simp only [hlink] at hnext
      split at hnext
      · cases hnext
      rename_i hpartner
      simp [hpartner]
  | split id instant =>
      cases hcut : t.toCut id instant ε with
      | error refusal =>
          simp only [apply, Timeline.split, hcut] at h
          cases h
      | ok clips =>
          by_cases hne : clips = []
          · exact ⟨_, .splitNothing (hne ▸ hcut)⟩
          · exact ⟨_, .split hcut hne⟩

namespace ClipEdit.Does

/-! ## Success -/

theorem apply_ok (h : edit.Does t ε effect) (hstep : t.InStep) (hhoused : t.Housed)
    (hids : t.Unnamed ids) :
    ∃ next, edit.apply t ε ids = (.ok next, ids.skip (effect.make ids).length) ∧
      t.Revision effect.keep effect.alter (effect.make ids) next := by
  have hfinite (x : Rat) : Scalar.isFinite x = true := rfl
  cases h with
  | @delete selection closed hclosure =>
      refine ⟨closed.toList.foldl erase t, ?_, foldl_erase_revision hstep closed.toList⟩
      rw [apply, Timeline.delete, hclosure]
      rfl
  | @setVolume id volume clip hvolume hclip =>
      refine ⟨_, ?_, modify_revision hstep id _⟩
      simp only [apply, Timeline.setVolume, hfinite, hvolume, hclip]
      rfl
  | @setSpeed id speed clip hspeed hclip hlink =>
      obtain ⟨next, hset⟩ : ∃ next, t.setSpeed id speed = .ok next := by
        simp only [Timeline.setSpeed, hfinite, hspeed, hclip]
        cases hto : clip.link with
        | none => exact ⟨_, rfl⟩
        | some link =>
            obtain ⟨partner, hpartner⟩ := Option.isSome_iff_exists.1 (hlink link hto)
            simp only [hpartner]
            exact ⟨_, rfl⟩
      obtain ⟨_, found, hfound, hid, hrevision⟩ := setSpeed_revision hstep hset
      obtain ⟨hmem, hown⟩ := hstep.clip?_eq_some_iff.1 hclip
      obtain rfl := hstep.eq_of_id_eq hfound hmem (hid.trans hown.symm)
      exact ⟨next, by rw [apply, hset]; rfl, hrevision⟩
  | @splitNothing id instant hcut =>
      refine ⟨t, ?_, .refl hstep⟩
      simp only [apply, Timeline.split, hcut]
      rfl
  | @split id instant clips hcut hne =>
      obtain ⟨next, hsplit⟩ :=
        split_of_toCut Scalar.ordered_exact hstep hids hhoused hcut hne
      obtain ⟨cut, hcut', _, hrevision, _⟩ := split_revision hstep hsplit
      rw [hcut] at hcut'
      cases hcut'
      refine ⟨next, ?_, hrevision⟩
      simp only [apply, hsplit]
      rfl

/-- Where links stay, and the clips are the same, an edit does the same. -/
theorem congr (h : edit.Does t ε effect) (hown : t.FindsById) (hown' : t'.FindsById)
    (hlinks : t.LinksStay kind) (hsame : ∀ id, kind id → t'.clip? id = t.clip? id)
    (hnamed : ∀ id ∈ edit.named, kind id) : edit.Does t' ε effect := by
  have htoCut {id : ClipId} (hid : kind id) (instant : Rat) :
      t'.toCut id instant ε = t.toCut id instant ε := by
    unfold toCut
    rw [hsame id hid]
    cases hclip : t.clip? id with
    | none => rfl
    | some clip =>
        cases hlink : clip.link with
        | none => simp only [hlink]
        | some link => simp only [hlink, hsame link (hlinks id clip hid hclip link hlink).1]
  cases h with
  | delete hclosure => exact .delete (hlinks.linkClosure_congr hown hown' hsame hnamed hclosure)
  | @setVolume id volume clip hvolume hclip =>
      have hid : kind id := hnamed id (List.mem_singleton_self id)
      exact .setVolume hvolume ((hsame id hid).trans hclip)
  | @setSpeed id speed clip hspeed hclip hlink =>
      have hid : kind id := hnamed id (List.mem_singleton_self id)
      refine .setSpeed hspeed ((hsame id hid).trans hclip) fun link hto => ?_
      rw [hsame link (hlinks id clip hid hclip link hto).1]
      exact hlink link hto
  | @splitNothing id instant hcut =>
      exact .splitNothing ((htoCut (hnamed id (List.mem_singleton_self id)) instant).trans hcut)
  | @split id instant clips hcut hne =>
      exact .split ((htoCut (hnamed id (List.mem_singleton_self id)) instant).trans hcut) hne

/-! ## What the effects have in common -/

theorem continues (h : edit.Does t ε effect) (clip : Clip Rat) :
    (effect.alter clip).Continues clip := by
  cases h with
  | delete => exact .refl clip
  | setVolume => exact (amend_volume_continues _ _ clip).1
  | setSpeed => exact (retime_continues _ _ clip).1
  | splitNothing => exact .refl clip
  | split => exact (cutShort_continues _ _ clip).1

theorem map_id_make (h : edit.Does t ε effect) (ids : IdSupply) :
    (effect.make ids).map Clip.id = ids.upcoming (effect.make ids).length := by
  cases h with
  | split => exact map_id_rightHalves _ _ ids
  | _ => rfl

theorem mem_upcoming (h : edit.Does t ε effect) {clip : Clip Rat} (hclip : clip ∈ effect.make ids) :
    clip.id ∈ ids.upcoming (effect.make ids).length :=
  h.map_id_make ids ▸ List.mem_map_of_mem hclip

theorem kind_of_toCut (hstep : t.InStep) (hlinks : t.LinksStay kind) {id : ClipId} {instant : Rat}
    (hid : kind id) {clips : List (Clip Rat)} (hcut : t.toCut id instant ε = .ok clips)
    (hne : clips ≠ []) : ∀ clip ∈ clips, kind clip.id := by
  obtain ⟨clip, hclip, rfl, _, hclips⟩ := toCut_spec hstep hcut hne
  rcases hclips with ⟨_, rfl⟩ | ⟨partner, _, hlink, _, rfl⟩
  · simpa using hid
  · simpa using ⟨hid, (hlinks clip.id clip hid (hstep.clip?_id hclip) partner.id hlink).1⟩

theorem spares (h : edit.Does t ε effect) (hstep : t.InStep) (hlinks : t.LinksStay kind)
    (hnamed : ∀ id ∈ edit.named, kind id) {clip : Clip Rat} (hclip : ¬ kind clip.id) :
    effect.keep clip = true ∧ effect.alter clip = clip := by
  cases h with
  | @delete selection closed hclosure =>
      refine ⟨?_, rfl⟩
      have hout : clip.id ∉ closed := by
        rw [mem_linkClosure_iff hstep.findsById hclosure]
        exact fun hreach =>
          hclip (hreach.congr hstep.findsById hlinks (fun _ _ => rfl) hnamed).1
      simpa using hout
  | @setVolume id volume found _ _ =>
      have hne : clip.id ≠ id := fun heq => hclip (heq ▸ hnamed id (List.mem_singleton_self id))
      exact ⟨rfl, if_neg hne⟩
  | @setSpeed id speed found _ hfound _ =>
      have hid : kind id := hnamed id (List.mem_singleton_self id)
      have hout : clip.id ∉ found.id :: found.link.toList := by
        intro hmem
        rcases List.mem_cons.1 hmem with heq | hlink
        · exact hclip (by rwa [heq, hstep.findsById id found hfound])
        · exact hclip (hlinks id found hid hfound clip.id (Option.mem_toList.1 hlink)).1
      exact ⟨rfl, if_neg hout⟩
  | splitNothing => exact ⟨rfl, rfl⟩
  | @split id instant clips hcut hne =>
      have hkinds := kind_of_toCut hstep hlinks (hnamed id (List.mem_singleton_self id)) hcut hne
      have hout : clip.id ∉ clips.map Clip.id := by
        intro hmem
        obtain ⟨cut, hin, heq⟩ := List.mem_map.1 hmem
        exact hclip (heq ▸ hkinds cut hin)
      exact ⟨rfl, if_neg hout⟩

theorem within (h : edit.Does t ε effect) (hstep : t.InStep) {clip : Clip Rat}
    (hclip : clip ∈ t.clips) : clip.span.start ≤ (effect.alter clip).span.start ∧
      (effect.alter clip).span.stop ≤ clip.span.stop := by
  have hsame {other : Clip Rat} (hspan : other.span = clip.span) :
      clip.span.start ≤ other.span.start ∧ other.span.stop ≤ clip.span.stop := by
    rw [hspan]
    exact ⟨le_refl _, le_refl _⟩
  cases h with
  | delete => exact hsame rfl
  | setVolume => exact hsame (amend_volume_span _ _ clip)
  | setSpeed => exact hsame (retime_span _ _ clip)
  | splitNothing => exact hsame rfl
  | split hcut hne =>
      exact cutShort_within (clean_of_mem_ids hstep (toCut_clean hstep hcut hne) hclip)

/-- What is made lies within a clip of the kind, on its track. -/
theorem exists_around (h : edit.Does t ε effect) (hstep : t.InStep) (hlinks : t.LinksStay kind)
    (hnamed : ∀ id ∈ edit.named, kind id) {clip : Clip Rat} (hclip : clip ∈ effect.make ids) :
    ∃ old ∈ t.clips, kind old.id ∧ clip.track = old.track ∧
      old.span.start ≤ clip.span.start ∧ clip.span.stop ≤ old.span.stop := by
  cases h with
  | @split id instant clips hcut hne =>
      obtain ⟨old, hin, hold, htrack, _, hspan⟩ :=
        rightHalf_within (toCut_clean hstep hcut hne) hclip
      have hkinds := kind_of_toCut hstep hlinks (hnamed id (List.mem_singleton_self id)) hcut hne
      exact ⟨old, hold, hkinds old hin, htrack, hspan⟩
  | _ => cases hclip

theorem length_make (h : edit.Does t ε effect) (ids ids' : IdSupply) :
    (effect.make ids).length = (effect.make ids').length := by
  cases h with
  | @split id instant clips hcut hne =>
      match clips with
      | [] => rfl
      | [_] => rfl
      | _ :: _ :: _ => rfl
  | _ => rfl

theorem map_rename_make (h : edit.Does t ε effect) {σ : ClipId → ClipId} {ids ids' : IdSupply}
    (hσ : ∀ i < (effect.make ids).length, σ (ids.skip i).next = (ids'.skip i).next) :
    (effect.make ids).map (Clip.rename σ) = effect.make ids' := by
  cases h with
  | @split id instant clips hcut hne =>
      simp only at hσ ⊢
      rw [map_rename_rightHalves]
      match clips, hσ with
      | [], _ => rfl
      | [_], hσ =>
          have hfirst : σ ids.next = ids'.next := hσ 0 Nat.zero_lt_one
          simp only [rightHalves, hfirst]
      | _ :: _ :: _, hσ =>
          have hfirst : σ ids.next = ids'.next := hσ 0 Nat.zero_lt_two
          have hsecond : σ (ids.skip 1).next = (ids'.skip 1).next := hσ 1 Nat.one_lt_two
          simp only [rightHalves, hfirst, hsecond]
  | _ => rfl

end ClipEdit.Does

end Montage
