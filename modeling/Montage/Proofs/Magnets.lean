import Mathlib.Algebra.Order.Group.Abs
import Montage.Proofs.Audit
import Montage.Proofs.Doubles
import Montage.Proofs.Drags

/-!
# What a magnet keeps

A magnet keeps the first of the closest corrections that are within its threshold. A drag offers it
corrections anew with each move of the pointer, so that its shift depends on the last move alone.
-/

namespace Montage

variable {α : Type}

/-- What has to hold of comparisons so that some of the distances below a threshold is the least. -/
structure Scalar.Compares (α : Type) [Scalar α] : Prop where
  irrefl : ∀ a : α, ¬ a < a
  trans : ∀ a b c : α, a < b → b < c → a < c
  lt_of_not_lt : ∀ a b c bound : α, a < b → c < bound → ¬ c < b → a < c

theorem Scalar.compares_double : Scalar.Compares Float where
  irrefl x hlt := by
    obtain ⟨a, b, ha, hb, hab⟩ := Doubles.lt_iff_key.1 hlt
    obtain rfl : a = b := Option.some.inj (ha.symm.trans hb)
    exact lt_irrefl a hab
  trans x y z hxy hyz := by
    obtain ⟨a, b, ha, hb, hab⟩ := Doubles.lt_iff_key.1 hxy
    obtain ⟨b', c, hb', hc, hbc⟩ := Doubles.lt_iff_key.1 hyz
    obtain rfl : b = b' := Option.some.inj (hb.symm.trans hb')
    exact Doubles.lt_iff_key.2 ⟨a, c, ha, hc, hab.trans hbc⟩
  lt_of_not_lt x y z bound hxy hz hzy := by
    obtain ⟨a, b, ha, hb, hab⟩ := Doubles.lt_iff_key.1 hxy
    obtain ⟨c, _, hc, _, _⟩ := Doubles.lt_iff_key.1 hz
    have hbc : b ≤ c := le_of_not_gt fun hcb => hzy (Doubles.lt_iff_key.2 ⟨c, b, hc, hb, hcb⟩)
    exact Doubles.lt_iff_key.2 ⟨a, c, ha, hc, hab.trans_le hbc⟩

theorem Scalar.compares_exact : Scalar.Compares Rat where
  irrefl := lt_irrefl
  trans _ _ _ := lt_trans
  lt_of_not_lt _ _ _ _ hab _ hcb := lt_of_lt_of_le hab (le_of_not_gt hcb)

/-! ## The first of the closest -/

namespace Magnet

variable [Scalar α] {threshold : α} {candidates : List (α × α)}

/-- The candidates, each with its distance, that are closer than the threshold. -/
def near (threshold : α) (candidates : List (α × α)) : List (α × α) :=
  candidates.filter fun candidate => candidate.1 < threshold

/-- The first candidate below the threshold that none below the threshold is closer than. -/
def nearest? (threshold : α) (candidates : List (α × α)) : Option (α × α) :=
  (near threshold candidates).find? fun candidate =>
    (near threshold candidates).all fun other => !(other.1 < candidate.1 : Bool)

/-- Offers with the distances that they are compared by. -/
def distances (offers : List (α × α)) : List (α × α) :=
  offers.map fun offer => (Scalar.abs offer.1, offer.2)

theorem near_append (threshold : α) (candidates : List (α × α)) (last : α × α) :
    near threshold (candidates ++ [last]) =
      near threshold candidates ++ if last.1 < threshold then [last] else [] := by
  simp [near, List.filter_append, List.filter_cons]

theorem lt_of_mem_near {candidate : α × α} (h : candidate ∈ near threshold candidates) :
    candidate.1 < threshold := by
  simpa using (List.mem_filter.1 h).2

theorem nearest?_eq_some_iff {best : α × α} :
    nearest? threshold candidates = some best ↔
      (∀ other ∈ near threshold candidates, ¬ other.1 < best.1) ∧
        ∃ before after, near threshold candidates = before ++ best :: after ∧
          ∀ earlier ∈ before, ∃ other ∈ near threshold candidates, other.1 < earlier.1 := by
  simp [nearest?, List.find?_eq_some_iff_append]

/-- One more candidate is the nearest if it is closer than the one before, or than the threshold. -/
theorem nearest?_append (h : Scalar.Compares α)
    (hnone : nearest? threshold candidates = none → near threshold candidates = [])
    (last : α × α) : nearest? threshold (candidates ++ [last]) =
      if last.1 < ((nearest? threshold candidates).map Prod.fst).getD threshold then some last
      else nearest? threshold candidates := by
  cases hbest : nearest? threshold candidates with
  | none =>
      have hnear := near_append threshold candidates last
      rw [hnone hbest, List.nil_append] at hnear
      rw [Option.map_none, Option.getD_none]
      split
      · rename_i hlast
        rw [if_pos hlast] at hnear
        simp [nearest?, hnear, h.irrefl]
      · rename_i hlast
        rw [if_neg hlast] at hnear
        simp [nearest?, hnear]
  | some best =>
      obtain ⟨hleast, before, after, hsplit, hbefore⟩ := nearest?_eq_some_iff.1 hbest
      have hmem : best ∈ near threshold candidates := by simp [hsplit]
      rw [Option.map_some, Option.getD_some]
      split
      · -- The last one is closer than the best, hence than all that were not closer than that.
        rename_i hcloser
        have hlast : last.1 < threshold := h.trans _ _ _ hcloser (lt_of_mem_near hmem)
        have hnear := near_append threshold candidates last
        rw [if_pos hlast] at hnear
        have hfirst : ∀ other ∈ near threshold candidates, last.1 < other.1 := fun other hother =>
          h.lt_of_not_lt _ _ _ _ hcloser (lt_of_mem_near hother) (hleast other hother)
        refine nearest?_eq_some_iff.2 ⟨fun other hother hlt => ?_, _, [], hnear, ?_⟩
        · rw [hnear, List.mem_append, List.mem_singleton] at hother
          rcases hother with hother | rfl
          · exact h.irrefl _ (h.trans _ _ _ hlt (hfirst other hother))
          · exact h.irrefl _ hlt
        · exact fun earlier hearlier => ⟨last, by simp [hnear], hfirst earlier hearlier⟩
      · -- The best stays, and what came before it is passed over for the same reason.
        rename_i hfar
        have hnear := near_append threshold candidates last
        refine nearest?_eq_some_iff.2 ⟨fun other hother => ?_, before,
          after ++ (if last.1 < threshold then [last] else []), ?_, fun earlier hearlier => ?_⟩
        · rw [hnear, List.mem_append] at hother
          rcases hother with hother | hother
          · exact hleast other hother
          · split at hother
            · rwa [List.mem_singleton.1 hother]
            · cases hother
        · rw [hnear, hsplit, List.append_assoc, List.cons_append]
        · obtain ⟨other, hother, hlt⟩ := hbefore earlier hearlier
          exact ⟨other, by simp [hnear, hother], hlt⟩

theorem near_eq_nil (h : Scalar.Compares α) (hnone : nearest? threshold candidates = none) :
    near threshold candidates = [] := by
  -- A magnet is offered one more at the end, so the induction is on the end of the list.
  induction candidates using List.reverseRecOn with
  | nil => rfl
  | append_singleton candidates last ih =>
      rw [nearest?_append h ih] at hnone
      split at hnone
      · cases hnone
      · rename_i hfar
        rw [hnone, Option.map_none, Option.getD_none] at hfar
        rw [near_append, ih hnone, if_neg hfar, List.nil_append]

/-- A magnet keeps the nearest of what it is offered, and how near that is. -/
theorem offerAll_within (h : Scalar.Compares α) (threshold : α) (offers : List (α × α)) :
    (within threshold).offerAll offers =
      ⟨(nearest? threshold (distances offers)).map Prod.snd,
        ((nearest? threshold (distances offers)).map Prod.fst).getD threshold⟩ := by
  induction offers using List.reverseRecOn with
  | nil => rfl
  | append_singleton offers last ih =>
      have hdistances : distances (offers ++ [last]) =
          distances offers ++ [(Scalar.abs last.1, last.2)] := by
        simp [distances]
      have hoffer : (within threshold).offerAll (offers ++ [last]) =
          ((within threshold).offerAll offers).offer last.1 last.2 := by
        simp [offerAll]
      rw [hoffer, ih, hdistances, nearest?_append h (near_eq_nil h), offer]
      split <;> rfl

/-- An instant is pulled by zero and by the edges, the nearest one first. -/
def edgeCandidates (instant : α) (edges : List α) : List (α × α) :=
  (Scalar.abs instant, 0) :: edges.map fun edge => (Scalar.abs (instant - edge), edge)

theorem snap_eq (h : Scalar.Compares α) (instant : α) (edges : List α) (threshold : α) :
    snap instant edges threshold =
      ((nearest? threshold (edgeCandidates instant edges)).map Prod.snd).getD instant := by
  have hdistances : distances ((instant, 0) :: edges.map fun edge => (instant - edge, edge)) =
      edgeCandidates instant edges := by
    simp [distances, edgeCandidates]
  rw [snap, offerAll_within h, hdistances]
  rfl

end Magnet

/-! ## The shift of a drag -/

namespace Drag

variable [Scalar α]

omit [Scalar α] in
/-- The clips beside a dragged one, on its track. -/
def neighbors (d : Drag α) (t : Timeline α) (held : Held α) : List (Clip α) :=
  ((t.track? held.track).elim [] Track.clips).filter fun clip => clip.id ∉ d.ids

/--
What a shift may be pulled to, each with its distance: a dragged start at zero, and then a dragged
start at the stop of a neighbor, or a dragged stop at its start.
-/
def candidates (d : Drag α) (t : Timeline α) (raw : α) : List (α × α) :=
  (d.held.map fun held => (Scalar.abs (held.start + raw), -held.start)) ++
    d.held.flatMap fun held => (d.neighbors t held).flatMap fun clip =>
      [(Scalar.abs (held.start + raw - clip.stop), clip.stop - held.start),
        (Scalar.abs (held.stop + raw - clip.start), clip.start - held.stop)]

theorem neighborOffers_eq (d : Drag α) (t : Timeline α) (raw : α) : d.neighborOffers t raw =
    d.held.flatMap fun held => edgeOffers held raw (d.neighbors t held) := by
  refine List.flatMap_congr fun held _ => ?_
  unfold neighbors
  cases t.track? held.track with
  | none => rfl
  | some track => simp

theorem distances_offers (d : Drag α) (t : Timeline α) (raw : α) :
    Magnet.distances (d.zeroOffers raw ++ d.neighborOffers t raw) = d.candidates t raw := by
  rw [neighborOffers_eq, candidates]
  simp [Magnet.distances, zeroOffers, edgeOffers, List.map_flatMap, Function.comp_def]

theorem snap_eq (h : Scalar.Compares α) (d : Drag α) (t : Timeline α) (raw threshold : α) :
    d.snap t raw threshold =
      ((Magnet.nearest? threshold (d.candidates t raw)).map Prod.snd).getD raw := by
  rw [snap, Magnet.offerAll_within h, distances_offers]
  rfl

theorem moveAll_append (d : Drag α) (t : Timeline α) (moves : List α) (pointer : α)
    (settings : EditorSettings α) :
    d.moveAll t (moves ++ [pointer]) settings = d.move t pointer settings := by
  have hlast : d.moveAll t (moves ++ [pointer]) settings =
      (d.moveAll t moves settings).move t pointer settings := by
    simp [moveAll]
  rw [hlast, moveAll_eq]
  rfl

/-- The shift after some moves is what the last one alone makes: the nearest candidate, if any. -/
def SnapsToNearest (d : Drag α) (t : Timeline α) (moves : List α) (pointer : α)
    (settings : EditorSettings α) : Prop :=
  let raw := settings.secondsOf (pointer - d.origin)
  Scalar.isFinite raw = true →
    d.moveAll t (moves ++ [pointer]) settings = d.move t pointer settings ∧
      (d.move t pointer settings).delta =
        ((Magnet.nearest? settings.snapSeconds (d.candidates t raw)).map Prod.snd).getD raw

theorem snapsToNearest (h : Scalar.Compares α) (d : Drag α) (t : Timeline α) (moves : List α)
    (pointer : α) (settings : EditorSettings α) : d.SnapsToNearest t moves pointer settings := by
  unfold SnapsToNearest
  intro raw hfinite
  refine ⟨d.moveAll_append t moves pointer settings, ?_⟩
  rw [← d.snap_eq h]
  exact if_pos hfinite

/-- The shift puts a dragged edge on zero or on the opposite edge of a neighbor. -/
def Touches (d : Drag α) (t : Timeline α) (delta : α) : Prop :=
  ∃ held ∈ d.held, held.start + delta = 0 ∨ ∃ clip ∈ d.neighbors t held,
    held.start + delta = clip.stop ∨ held.stop + delta = clip.start

theorem candidate_spec {d : Drag Rat} {t : Timeline Rat} {raw : Rat} {candidate : Rat × Rat}
    (h : candidate ∈ d.candidates t raw) :
    candidate.1 = |candidate.2 - raw| ∧ d.Touches t candidate.2 := by
  rcases List.mem_append.1 h with hzero | hneighbor
  · obtain ⟨held, hheld, rfl⟩ := List.mem_map.1 hzero
    refine ⟨?_, held, hheld, .inl (add_neg_cancel held.start)⟩
    rw [Scalar.abs_exact, ← abs_neg, neg_add']
  · simp only [List.mem_flatMap, List.mem_cons, List.not_mem_nil, or_false] at hneighbor
    obtain ⟨held, hheld, clip, hclip, rfl | rfl⟩ := hneighbor
    · refine ⟨?_, held, hheld, .inr ⟨clip, hclip, .inl (add_sub_cancel held.start clip.stop)⟩⟩
      rw [Scalar.abs_exact, abs_sub_comm, sub_sub]
    · refine ⟨?_, held, hheld, .inr ⟨clip, hclip, .inr (add_sub_cancel held.stop clip.start)⟩⟩
      rw [Scalar.abs_exact, abs_sub_comm, sub_sub]

end Drag

namespace Magnet

theorem mem_of_nearest? [Scalar α] {threshold : α} {candidates : List (α × α)} {best : α × α}
    (h : nearest? threshold candidates = some best) : best ∈ candidates ∧ best.1 < threshold := by
  have hmem : best ∈ near threshold candidates := List.mem_of_find?_eq_some h
  exact ⟨(List.mem_filter.1 hmem).1, lt_of_mem_near hmem⟩

theorem edgeCandidate_spec {instant : Rat} {edges : List Rat} {candidate : Rat × Rat}
    (h : candidate ∈ edgeCandidates instant edges) :
    candidate.1 = |candidate.2 - instant| ∧ (candidate.2 = 0 ∨ candidate.2 ∈ edges) := by
  rcases List.mem_cons.1 h with rfl | hedge
  · exact ⟨by rw [Scalar.abs_exact, zero_sub, abs_neg], .inl rfl⟩
  · obtain ⟨edge, hmem, rfl⟩ := List.mem_map.1 hedge
    exact ⟨by rw [Scalar.abs_exact, abs_sub_comm], .inr hmem⟩

/-- What is pulled nowhere stays, which is nearer than any threshold above zero. -/
theorem getD_near {threshold raw : Rat} {candidates : List (Rat × Rat)}
    (h : ∀ candidate ∈ candidates, candidate.1 = |candidate.2 - raw|) (hthreshold : 0 < threshold) :
    |((nearest? threshold candidates).map Prod.snd).getD raw - raw| < threshold := by
  cases hbest : nearest? threshold candidates with
  | none => rwa [Option.map_none, Option.getD_none, sub_self, abs_zero]
  | some best =>
      obtain ⟨hmem, hlt⟩ := mem_of_nearest? hbest
      rwa [Option.map_some, Option.getD_some, ← h best hmem]

/--
The last position of the pointer alone decides on the shift of a drag, and pulls it to the first of
the nearest candidates; an instant is pulled to the first of the nearest edges. On exact times that
is closer than the threshold, and on an edge. What is not pulled stays, which is closer than the
threshold unless that is zero.
-/
theorem pulls_to_nearest :
    (∀ (t : Timeline Float) (d : Drag Float) (moves : List Float) (pointer : Float)
      (settings : EditorSettings Float), d.SnapsToNearest t moves pointer settings) ∧
    (∀ (t : Timeline Rat) (d : Drag Rat) (moves : List Rat) (pointer : Rat)
      (settings : EditorSettings Rat), d.SnapsToNearest t moves pointer settings ∧
        let raw := settings.secondsOf (pointer - d.origin)
        let delta := (d.moveAll t (moves ++ [pointer]) settings).delta
        (∀ best, nearest? settings.snapSeconds (d.candidates t raw) = some best →
          delta = best.2 ∧ |delta - raw| < settings.snapSeconds ∧ d.Touches t delta) ∧
        (0 < settings.snapSeconds → |delta - raw| < settings.snapSeconds)) ∧
    (∀ (instant : Float) (edges : List Float) (threshold : Float), snap instant edges threshold =
      ((nearest? threshold (edgeCandidates instant edges)).map Prod.snd).getD instant) ∧
    ∀ (instant : Rat) (edges : List Rat) (threshold : Rat),
      let pulled := snap instant edges threshold
      pulled = ((nearest? threshold (edgeCandidates instant edges)).map Prod.snd).getD instant ∧
        (∀ best, nearest? threshold (edgeCandidates instant edges) = some best →
          pulled = best.2 ∧ |pulled - instant| < threshold ∧ (pulled = 0 ∨ pulled ∈ edges)) ∧
        (0 < threshold → |pulled - instant| < threshold) := by
  refine ⟨fun t d => d.snapsToNearest Scalar.compares_double t, fun t d moves pointer settings => ?_,
    snap_eq Scalar.compares_double, fun instant edges threshold => ?_⟩
  · have hsnaps := d.snapsToNearest Scalar.compares_exact t moves pointer settings
    refine ⟨hsnaps, ?_⟩
    intro raw delta
    obtain ⟨hlast, hdelta⟩ := hsnaps rfl
    have hdelta : delta = _ := (congrArg Drag.delta hlast).trans hdelta
    refine ⟨fun best hbest => ?_, fun hthreshold => ?_⟩
    · obtain ⟨hmem, hlt⟩ := mem_of_nearest? hbest
      obtain ⟨hdistance, htouches⟩ := Drag.candidate_spec hmem
      rw [hbest, Option.map_some, Option.getD_some] at hdelta
      rw [hdelta, ← hdistance]
      exact ⟨rfl, hlt, htouches⟩
    · rw [hdelta]
      exact getD_near (fun candidate hmem => (Drag.candidate_spec hmem).1) hthreshold
  · intro pulled
    have hpulled : pulled = _ := snap_eq Scalar.compares_exact instant edges threshold
    refine ⟨hpulled, fun best hbest => ?_, fun hthreshold => ?_⟩
    · obtain ⟨hmem, hlt⟩ := mem_of_nearest? hbest
      obtain ⟨hdistance, hedge⟩ := edgeCandidate_spec hmem
      rw [hbest, Option.map_some, Option.getD_some] at hpulled
      rw [hpulled, ← hdistance]
      exact ⟨rfl, hlt, hedge⟩
    · rw [hpulled]
      exact getD_near (fun candidate hmem => (edgeCandidate_spec hmem).1) hthreshold

/-- A sound, and a second after it another one. -/
def spacedTimeline : Timeline Rat :=
  .ofTracks "t" [⟨"audio-1", .audio,
    [⟨"a", "audio-1", "media/a.wav", 0, 5, 0, .audio, 1, 1, 0, none⟩,
      ⟨"b", "audio-1", "media/b.wav", 6, 8, 0, .audio, 1, 1, 0, none⟩]⟩]

/-- A drag of the second sound. -/
def spacedDrag : Drag Rat :=
  ⟨[⟨"b", "audio-1", 6, 8⟩], 0, 0⟩

theorem start_spaced : Drag.start spacedTimeline {"b"} "b" 0 = .ok spacedDrag := by
  decide +kernel

theorem pulls_to_nearest_neighbor :
    let settings : EditorSettings Rat := .standard
    let delta := (spacedDrag.moveAll spacedTimeline ([100, 3] ++ [-16]) settings).delta
    Drag.start spacedTimeline {"b"} "b" 0 = .ok spacedDrag ∧ delta = -1 ∧
      |delta - settings.secondsOf (-16 - spacedDrag.origin)| < settings.snapSeconds ∧
      spacedDrag.Touches spacedTimeline delta := by
  intro settings delta
  have hbest : nearest? settings.snapSeconds (spacedDrag.candidates spacedTimeline
      (settings.secondsOf (-16 - spacedDrag.origin))) = some (1 / 5, -1) := by
    decide +kernel
  obtain ⟨_, hpulled, _⟩ :=
    pulls_to_nearest.2.1 spacedTimeline spacedDrag [100, 3] (-16) settings
  exact ⟨start_spaced, hpulled (1 / 5, -1) hbest⟩

/-- Of two edges as close as each other, the first one pulls. -/
example : snap (3 : Rat) [7 / 2, 5 / 2] 1 = 7 / 2 ∧ snap (3 : Rat) [5 / 2, 7 / 2] 1 = 5 / 2 := by
  decide +kernel

/-- Settings may have a threshold of zero, and nothing is closer than that. -/
theorem pulled_by_no_threshold :
    let settings : EditorSettings Rat := { EditorSettings.standard with snapPixels := 0 }
    let raw := settings.secondsOf (10 - spacedDrag.origin)
    let delta := (spacedDrag.moveAll spacedTimeline [10] settings).delta
    settings.check = .ok () ∧ Drag.start spacedTimeline {"b"} "b" 0 = .ok spacedDrag ∧
      delta = raw ∧ ¬ |delta - raw| < settings.snapSeconds ∧
      snap (3 : Rat) [10] 0 = 3 ∧ ¬ |snap (3 : Rat) [10] 0 - 3| < 0 := by
  intro settings raw delta
  have hdelta : delta = raw := by decide +kernel
  have hthreshold : settings.snapSeconds = 0 := by decide +kernel
  have hsnap : snap (3 : Rat) [10] 0 = 3 := by decide +kernel
  refine ⟨by decide +kernel, start_spaced, hdelta, ?_, hsnap, not_lt_of_ge (abs_nonneg _)⟩
  rw [hthreshold]
  exact not_lt_of_ge (abs_nonneg _)

end Magnet

end Montage
