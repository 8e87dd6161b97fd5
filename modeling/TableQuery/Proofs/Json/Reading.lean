import TableQuery.Json.Reader
import TableQuery.Proofs.Result

/-!
# What is read is in order and not too deep

Main statement: in a value that was read the members of every object are in ascending order, and no
more containers are nested than a reader allows. Each step of the reader keeps both of all that it
has read so far.
-/

namespace TableQuery.Json

theorem orderedItems_iff (items : List Json) : OrderedItems items ↔ ∀ v ∈ items, v.Ordered := by
  induction items with
  | nil => simp [OrderedItems]
  | cons item items ih => simp [OrderedItems, ih]

theorem orderedMembers_iff (members : List (String × Json)) :
    OrderedMembers members ↔ ∀ e ∈ members, e.2.Ordered := by
  induction members with
  | nil => simp [OrderedMembers]
  | cons member members ih => simp [OrderedMembers, ih]

theorem ordered_of_get? {key : String} {members : List (String × Json)} {v : Json}
    (h : (Json.object members).Ordered) (hv : Entries.get? key members = some v) : v.Ordered :=
  (orderedMembers_iff members).mp h.2 _ (Entries.mem_of_get? hv)

theorem nestingItems_le_iff (items : List Json) (n : Nat) :
    nestingItems items ≤ n ↔ ∀ v ∈ items, v.nesting ≤ n := by
  induction items with
  | nil => simp [nestingItems]
  | cons item items ih => rw [nestingItems, Nat.max_le, ih, List.forall_mem_cons]

theorem nestingMembers_le_iff (members : List (String × Json)) (n : Nat) :
    nestingMembers members ≤ n ↔ ∀ e ∈ members, e.2.nesting ≤ n := by
  induction members with
  | nil => simp [nestingMembers]
  | cons member members ih => rw [nestingMembers, Nat.max_le, ih, List.forall_mem_cons]

/-- The value may stand inside `depth` containers. -/
def Fits (depth : Nat) (v : Json) : Prop := v.Ordered ∧ v.nesting + depth ≤ maxNesting

def MembersFit (depth : Nat) (members : List (String × Json)) : Prop :=
  Ascending members ∧ ∀ e ∈ members, Fits depth e.2

theorem fits_array {depth : Nat} (hdepth : depth < maxNesting) {items : List Json}
    (h : ∀ v ∈ items, Fits (depth + 1) v) : Fits depth (.array items) := by
  have hdeep : nestingItems items ≤ maxNesting - (depth + 1) :=
    (nestingItems_le_iff items _).mpr fun v hv => by
      have := (h v hv).2
      omega
  refine ⟨(orderedItems_iff items).mpr fun v hv => (h v hv).1, ?_⟩
  rw [nesting]
  omega

theorem fits_object {depth : Nat} (hdepth : depth < maxNesting) {members : List (String × Json)}
    (h : MembersFit (depth + 1) members) : Fits depth (.object members) := by
  obtain ⟨hascending, h⟩ := h
  have hdeep : nestingMembers members ≤ maxNesting - (depth + 1) :=
    (nestingMembers_le_iff members _).mpr fun e he => by
      have := (h e he).2
      omega
  refine ⟨⟨hascending, (orderedMembers_iff members).mpr fun e he => (h e he).1⟩, ?_⟩
  rw [nesting]
  omega

theorem membersFit_of_fits {depth : Nat} {members : List (String × Json)}
    (h : Fits depth (.object members)) : MembersFit (depth + 1) members := by
  obtain ⟨⟨hascending, hordered⟩, hdeep⟩ := h
  rw [nesting] at hdeep
  refine ⟨hascending, fun e he => ⟨(orderedMembers_iff members).mp hordered e he, ?_⟩⟩
  have := (nestingMembers_le_iff members _).mp (Nat.le_refl _) e he
  omega

theorem membersFit_insert {depth : Nat} {members : List (String × Json)} (key : String) {v : Json}
    (h : MembersFit depth members) (hv : Fits depth v) :
    MembersFit depth (Entries.insert key v members) := by
  refine ⟨Entries.ascending_insert key v h.1, fun e he => ?_⟩
  rcases Entries.mem_of_mem_insert he with rfl | he
  · exact hv
  · exact h.2 e he

namespace Reader

def FrameFits (depth : Nat) : Frame → Prop
  | .items read => ∀ v ∈ read, Fits depth v
  | .members read _ => MembersFit depth read

def OuterFits : List Frame → Prop
  | [] => True
  | frame :: outer => FrameFits (outer.length + 1) frame ∧ outer.length < maxNesting ∧ OuterFits outer

/-- All that was read so far is in order, and no container is too deep. -/
def Sound : Reader → Prop
  | .value outer => OuterFits outer
  | .firstItem outer => OuterFits outer ∧ outer.length < maxNesting
  | .firstKey outer => OuterFits outer ∧ outer.length < maxNesting
  | .nextKey outer read =>
    OuterFits outer ∧ outer.length < maxNesting ∧ MembersFit (outer.length + 1) read
  | .colon outer read _ =>
    OuterFits outer ∧ outer.length < maxNesting ∧ MembersFit (outer.length + 1) read
  | .after outer v => OuterFits outer ∧ Fits outer.length v

theorem length_of_outerFits {outer : List Frame} (h : OuterFits outer) :
    outer.length ≤ maxNesting := by
  cases outer with
  | nil => exact Nat.zero_le _
  | cons frame outer => exact h.2.1

theorem sound_beginValue {outer : List Frame} (h : OuterFits outer) {t : Token} {r : Reader}
    (hr : beginValue outer t = .ok r) : r.Sound := by
  have hleaf : ∀ v : Json, v.Ordered → v.nesting = 0 → Sound (.after outer v) := fun v hv hn =>
    ⟨h, hv, by rw [hn, Nat.zero_add]; exact length_of_outerFits h⟩
  unfold beginValue at hr
  split at hr
  next => cases hr; exact hleaf .null trivial rfl
  next b => cases hr; exact hleaf (.bool b) trivial rfl
  next n => cases hr; exact hleaf (.number n) trivial rfl
  next s => cases hr; exact hleaf (.string s) trivial rfl
  next => split at hr <;> cases hr; exact ⟨h, ‹_›⟩
  next => split at hr <;> cases hr; exact ⟨h, ‹_›⟩
  next => cases hr
  next => cases hr

theorem sound_beginKey {outer : List Frame} {read : List (String × Json)} {t : Token} {r : Reader}
    (h : OuterFits outer ∧ outer.length < maxNesting ∧ MembersFit (outer.length + 1) read)
    (hr : beginKey outer read t = .ok r) : r.Sound := by
  unfold beginKey at hr
  split at hr <;> cases hr
  exact h

theorem sound_step {r next : Reader} {t : Token} (h : r.Sound) (hr : r.step t = .ok next) :
    next.Sound := by
  have hempty : ∀ depth, MembersFit depth [] := fun _ => ⟨Entries.ascending_nil, nofun⟩
  unfold step at hr
  split at hr
  next outer t => exact sound_beginValue h hr
  next outer => cases hr; exact ⟨h.1, fits_array h.2 nofun⟩
  next outer _ =>
    have houter : OuterFits (.items [] :: outer) := ⟨nofun, h.2, h.1⟩
    exact sound_beginValue houter hr
  next outer => cases hr; exact ⟨h.1, fits_object h.2 (hempty _)⟩
  next outer _ => exact sound_beginKey ⟨h.1, h.2, hempty _⟩ hr
  next outer read t => exact sound_beginKey h hr
  next outer read key => cases hr; exact ⟨h.2.2, h.2.1, h.1⟩
  next read outer v =>
    cases hr
    obtain ⟨⟨hread, hlength, houter⟩, hv⟩ := h
    exact ⟨List.forall_mem_cons.mpr ⟨hv, hread⟩, hlength, houter⟩
  next read outer v =>
    cases hr
    obtain ⟨⟨hread, hlength, houter⟩, hv⟩ := h
    exact ⟨houter, fits_array hlength fun w hw =>
      List.forall_mem_cons.mpr ⟨hv, hread⟩ w (List.mem_reverse.mp hw)⟩
  next read key outer v =>
    cases hr
    obtain ⟨⟨hread, hlength, houter⟩, hv⟩ := h
    exact ⟨houter, hlength, membersFit_insert key hread hv⟩
  next read key outer v =>
    cases hr
    obtain ⟨⟨hread, hlength, houter⟩, hv⟩ := h
    exact ⟨houter, fits_object hlength (membersFit_insert key hread hv)⟩
  next => cases hr

theorem sound_run {r last : Reader} {ts : List Token} (h : r.Sound) (hr : run r ts = .ok last) :
    last.Sound := by
  induction ts generalizing r with
  | nil => cases hr; exact h
  | cons t ts ih =>
    obtain ⟨next, hnext, hr⟩ := bind_eq_ok_iff.mp hr
    exact ih (sound_step h hnext) hr

end Reader

theorem fits_of_parse {text : String} {v : Json} (h : parse text = .ok v) : Fits 0 v := by
  obtain ⟨last, hlast, hv⟩ := bind_eq_ok_iff.mp h
  have hfirst : Reader.Sound (.value []) := trivial
  have hsound := Reader.sound_run hfirst hlast
  split at hv
  next w => cases hv; exact hsound.2
  next => cases hv

end TableQuery.Json
