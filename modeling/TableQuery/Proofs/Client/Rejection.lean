import TableQuery.Proofs.Client.Delivery
import TableQuery.Proofs.Client.WireForm
import TableQuery.Proofs.Response.Batch
import TableQuery.Proofs.Response.Reread

/-!
# A rejected lookup does not break a batch

Each response of a batch depends on the object under its own key and on nothing else. An object of a
rejected lookup gives an empty response, and the other responses are what they are without it.
-/

namespace TableQuery

open Json Response

/-! ## One object of a batch -/

def Response.RejectedAt (root : Members) (key : String) : Prop :=
  ∃ members version status, Entries.get? key root = some (.object members) ∧
    Rejected members version status

namespace ResponseKind

/-- A text of the object can be read as this kind of response. -/
def Decodes (kind : ResponseKind) (members : Members) : Prop :=
  ∃ text r, Json.parse text = .ok (.object members) ∧ kind.parse text = .ok r

/-- The object can stand for a lookup of this kind: it decodes or the lookup was rejected. -/
def Tolerates (kind : ResponseKind) (members : Members) : Prop :=
  kind.Decodes members ∨ ∃ version status, Rejected members version status

def ToleratedAt (kind : ResponseKind) (root : Members) (key : String) : Prop :=
  ∃ members, Entries.get? key root = some (.object members) ∧ kind.Tolerates members

/-- What a batch gives for an object: what is read from the text that is written for it. -/
structure Gives (kind : ResponseKind) (members : Members) (r : AnyResponse) : Prop where
  own : kind.parse (Json.object members).render = .ok r
  decoded : ∀ text r', Json.parse text = .ok (.object members) → kind.parse text = .ok r' →
    ∃ version status, Respelled members "version" r'.envelope.version version ∧
      Respelled members "status" r'.envelope.status status ∧
      r = r'.reread (Json.object members).render version status
  same : (Json.object members).DoublesReadBack → ∀ text r',
    Json.parse text = .ok (.object members) → kind.parse text = .ok r' → r' = r.withText text
  rejected : ∀ version status, Rejected members version status →
    ∃ v s, Respelled members "version" version v ∧ Respelled members "status" status s ∧
      r = kind.withoutPayload (Json.object members).render ⟨v, s, none, 0⟩

end ResponseKind

theorem BatchResponse.parseOne_of_object {root members : Members} {key : String}
    (hkey : Entries.get? key root = some (.object members)) (kind : ResponseKind) :
    parseOne root (key, kind) = (kind.parse (Json.object members).render).map (key, ·) := by
  rw [parseOne, hkey]

section

variable {body : String} {root : Members} (hread : Json.parse body = .ok (.object root))
  {key : String} {members : Members} (hkey : Entries.get? key root = some (.object members))
include hread hkey

theorem Json.parse_own_text :
    Json.parse (Json.object members).render = .ok (.object (rereadMembers members)) := by
  have hfits := (membersFit_of_fits (fits_of_parse hread)).2 _ (Entries.mem_of_get? hkey)
  exact parse_render_eq hfits.1 (Nat.le_of_succ_le hfits.2)

theorem ResponseKind.exists_parse_own {kind : ResponseKind} (h : kind.Tolerates members) :
    ∃ r, kind.parse (Json.object members).render = .ok r := by
  have hown := Json.parse_own_text hread hkey
  -- What is read is the object with its doubles read again; either way it still decodes.
  rcases h with ⟨text, r, htext, hr⟩ | ⟨version, status, h⟩
  · rw [parse_of_object htext] at hr
    obtain ⟨v, s, -, -, hagain⟩ := decode_reread hr
    exact ⟨_, (parse_of_object hown kind).trans (hagain _)⟩
  · obtain ⟨v, s, -, -, hagain⟩ := h.reread
    exact ⟨_, hagain.parse hown kind⟩

theorem ResponseKind.gives_of_parse {kind : ResponseKind} {r : AnyResponse}
    (h : kind.parse (Json.object members).render = .ok r) : kind.Gives members r := by
  have hown := Json.parse_own_text hread hkey
  refine ⟨h, ?_, ?_, ?_⟩
  · intro text r' htext hr'
    rw [parse_of_object htext] at hr'
    obtain ⟨v, s, hversion, hstatus, hagain⟩ := decode_reread hr'
    rw [parse_of_object hown, hagain] at h
    exact ⟨v, s, hversion, hstatus, (Except.ok.inj h).symm⟩
  · intro hdoubles text r' htext hr'
    have hsame : rereadMembers members = members :=
      rereadMembers_eq_self members hdoubles
    rw [hsame] at hown
    rw [parse_of_object hown] at h
    rw [parse_of_object htext, kind.decode_eq_map _ (Json.object members).render, h] at hr'
    exact (Except.ok.inj hr').symm
  · intro version status hrejected
    obtain ⟨v, s, hversion, hstatus, hagain⟩ := hrejected.reread
    rw [hagain.parse hown kind] at h
    exact ⟨v, s, hversion, hstatus, (Except.ok.inj h).symm⟩

theorem BatchResponse.exists_parseOne {kind : ResponseKind} (h : kind.Tolerates members) :
    ∃ r, parseOne root (key, kind) = .ok (key, r) := by
  obtain ⟨r, hr⟩ := ResponseKind.exists_parse_own hread hkey h
  exact ⟨r, by rw [parseOne_of_object hkey, hr]; rfl⟩

theorem ResponseKind.gives_of_parseOne {kind : ResponseKind} {answer : String × AnyResponse}
    (h : BatchResponse.parseOne root (key, kind) = .ok answer) :
    ∃ r, answer = (key, r) ∧ kind.Gives members r := by
  rw [BatchResponse.parseOne_of_object hkey] at h
  obtain ⟨r, hr, rfl⟩ := map_eq_ok_iff.mp h
  exact ⟨r, rfl, gives_of_parse hread hkey hr⟩

theorem Response.Bare.parseOne (h : Bare members) {kind : ResponseKind}
    (hkind : kind ∈ ResponseKind.dataKinds) :
    BatchResponse.parseOne root (key, kind) = .error (.missingField "response") := by
  rw [BatchResponse.parseOne_of_object hkey, h.reread.parse hkind (Json.parse_own_text hread hkey)]
  rfl

end

/-! ## A batch -/

def Client.queued (config : Config) (lookups : List Lookup) : Client :=
  lookups.foldl enqueue (.new config)

/-- The transport answers the batch of the lookups with a body that holds the object. -/
structure BatchReply (transport : Transport) (lookups : List Lookup) (body : String)
    (root : Members) : Prop where
  answered : transport [] (batchCall lookups) = .ok body
  read : Json.parse body = .ok (.object root)

theorem Client.foldl_enqueue (c : Client) (lookups : List Lookup) :
    lookups.foldl enqueue c = { c with queue := lookups.foldl Queue.push c.queue } := by
  induction lookups generalizing c with
  | nil => rfl
  | cons l lookups ih => exact ih (c.enqueue l)

namespace BatchReply

variable {config : Config} {transport : Transport} {lookups : List Lookup} {body : String}
  {root : Members}

theorem sendRequests_eq (h : BatchReply transport lookups body root) (hne : lookups ≠ []) :
    ((Client.queued config lookups).sendRequests transport).1 =
      (BatchResponse.parse body (Batch.ofLookups lookups).kinds).mapError .response := by
  rw [Client.queued, Client.foldl_enqueue]
  exact sendRequests_of_answered (Batch.pending_foldl_push lookups ∅) hne h.answered

theorem exists_responses (h : BatchReply transport lookups body root) (hne : lookups ≠ [])
    (hparts : ∀ i (hi : i < lookups.length), ∃ answer,
      BatchResponse.parseOne root (Batch.key i, lookups[i].kind) = .ok answer) :
    ∃ b, ((Client.queued config lookups).sendRequests transport).1 = .ok b := by
  have hall : ∀ request ∈ (Batch.ofLookups lookups).kinds,
      ∃ answer, BatchResponse.parseOne root request = .ok answer :=
    Batch.forall_mem_kinds lookups hparts
  obtain ⟨answers, hanswers⟩ := exists_forall₂_iff.mpr hall
  refine ⟨⟨body, answers⟩, ?_⟩
  rw [h.sendRequests_eq hne, mapError_eq_ok_iff, BatchResponse.parse_of_root h.read]
  exact map_eq_ok_iff.mpr ⟨answers, mapM_eq_ok_iff.mpr hanswers, rfl⟩

section

variable {b : BatchResponse}
  (hb : ((Client.queued config lookups).sendRequests transport).1 = .ok b)
include hb

theorem forall₂_responses (h : BatchReply transport lookups body root) (hne : lookups ≠ []) :
    List.Forall₂ (fun request answer => BatchResponse.parseOne root request = .ok answer)
      (Batch.ofLookups lookups).kinds b.responses := by
  rw [h.sendRequests_eq hne, mapError_eq_ok_iff, BatchResponse.parse_of_root h.read] at hb
  obtain ⟨answers, hanswers, rfl⟩ := map_eq_ok_iff.mp hb
  exact mapM_eq_ok_iff.mp hanswers

theorem length_responses (h : BatchReply transport lookups body root) (hne : lookups ≠ []) :
    b.responses.length = lookups.length :=
  (h.forall₂_responses hb hne).length_eq.symm.trans (Batch.length_kinds lookups)

theorem getElem?_responses (h : BatchReply transport lookups body root) {i : Nat}
    (hi : i < lookups.length) : ∃ answer, b.responses[i]? = some answer ∧
      BatchResponse.parseOne root (Batch.key i, lookups[i].kind) = .ok answer := by
  have hne : lookups ≠ [] := List.ne_nil_of_length_pos (Nat.zero_lt_of_lt hi)
  refine exists_getElem?_of_forall₂ (h.forall₂_responses hb hne) ?_
  rw [Batch.getElem?_kinds, List.getElem?_eq_getElem hi, Option.map_some]

end

theorem sendRequests_of_error (h : BatchReply transport lookups body root) {i : Nat}
    (hi : i < lookups.length)
    (hbefore : ∀ j (hj : j < i), ∃ answer,
      BatchResponse.parseOne root (Batch.key j, lookups[j].kind) = .ok answer)
    {e : ResponseError}
    (he : BatchResponse.parseOne root (Batch.key i, lookups[i].kind) = .error e) :
    ((Client.queued config lookups).sendRequests transport).1 = .error (.response e) := by
  have hlt : i < (Batch.ofLookups lookups).kinds.length := (Batch.length_kinds lookups).symm ▸ hi
  have hsplit : (Batch.ofLookups lookups).kinds = (Batch.ofLookups lookups).kinds.take i ++
      (Batch.key i, lookups[i].kind) :: (Batch.ofLookups lookups).kinds.drop (i + 1) := by
    rw [← Batch.getElem_kinds lookups hi hlt, List.getElem_cons_drop, List.take_append_drop]
  have hearlier : ∀ request ∈ (Batch.ofLookups lookups).kinds.take i,
      ∃ answer, BatchResponse.parseOne root request = .ok answer := by
    intro request hrequest
    obtain ⟨j, hj, rfl⟩ := List.mem_take_iff_getElem.mp hrequest
    have hji : j < i := Nat.lt_of_lt_of_le hj (Nat.min_le_left ..)
    exact Batch.getElem_kinds lookups (hji.trans hi) (hji.trans hlt) ▸ hbefore j hji
  have hmap := mapM_eq_error_iff.mpr ⟨_, _, _, hsplit, hearlier, he⟩
  rw [h.sendRequests_eq (List.ne_nil_of_length_pos (Nat.zero_lt_of_lt hi)),
    BatchResponse.parse_of_root h.read, hmap]
  rfl

theorem exists_responses_of_tolerated (h : BatchReply transport lookups body root)
    (hne : lookups ≠ [])
    (hparts : ∀ i (hi : i < lookups.length), lookups[i].kind.ToleratedAt root (Batch.key i)) :
    ∃ b, ((Client.queued config lookups).sendRequests transport).1 = .ok b := by
  refine h.exists_responses hne fun i hi => ?_
  obtain ⟨members, hkey, htolerated⟩ := hparts i hi
  obtain ⟨r, hr⟩ := BatchResponse.exists_parseOne h.read hkey htolerated
  exact ⟨_, hr⟩

theorem gives_of_responses (h : BatchReply transport lookups body root) {b : BatchResponse}
    (hb : ((Client.queued config lookups).sendRequests transport).1 = .ok b) {i : Nat}
    (hi : i < lookups.length) {members : Members}
    (hkey : Entries.get? (Batch.key i) root = some (.object members)) :
    ∃ r, b.responses[i]? = some (Batch.key i, r) ∧ lookups[i].kind.Gives members r := by
  obtain ⟨answer, hanswer, hparse⟩ := h.getElem?_responses hb hi
  obtain ⟨r, rfl, hgives⟩ := ResponseKind.gives_of_parseOne h.read hkey hparse
  exact ⟨r, hanswer, hgives⟩

/-- An object without a payload breaks the batch, unless an earlier one does. -/
theorem sendRequests_of_bare (h : BatchReply transport lookups body root) {i : Nat}
    (hi : i < lookups.length) {members : Members}
    (hkey : Entries.get? (Batch.key i) root = some (.object members)) (hbare : Bare members)
    (hkind : lookups[i].kind ∈ ResponseKind.dataKinds)
    (hbefore : ∀ j (hj : j < i), lookups[j].kind.ToleratedAt root (Batch.key j)) :
    ((Client.queued config lookups).sendRequests transport).1 =
      .error (.response (.missingField "response")) := by
  refine h.sendRequests_of_error hi (fun j hj => ?_) (hbare.parseOne h.read hkey hkind)
  obtain ⟨earlier, hearlier, htolerated⟩ := hbefore j hj
  obtain ⟨r, hr⟩ := BatchResponse.exists_parseOne h.read hearlier htolerated
  exact ⟨_, hr⟩

section

variable {other : Transport} {otherBody : String} {otherRoot : Members} {b : BatchResponse}
  (h : BatchReply transport lookups body root) (ho : BatchReply other lookups otherBody otherRoot)
  (hb : ((Client.queued config lookups).sendRequests transport).1 = .ok b)
include h ho hb

theorem exists_responses_of_replaced (hne : lookups ≠ [])
    (hreplaced : ∀ i < lookups.length,
      Entries.get? (Batch.key i) otherRoot = Entries.get? (Batch.key i) root ∨
        RejectedAt otherRoot (Batch.key i)) :
    ∃ b', ((Client.queued config lookups).sendRequests other).1 = .ok b' := by
  refine ho.exists_responses hne fun i hi => ?_
  rcases hreplaced i hi with hsame | ⟨members, version, status, hkey, hrejected⟩
  · obtain ⟨answer, -, hanswer⟩ := h.getElem?_responses hb hi
    exact ⟨answer, (BatchResponse.parseOne_congr hsame).trans hanswer⟩
  · obtain ⟨r, hr⟩ := BatchResponse.exists_parseOne ho.read hkey (.inr ⟨_, _, hrejected⟩)
    exact ⟨_, hr⟩

theorem getElem?_responses_of_same {b' : BatchResponse}
    (hb' : ((Client.queued config lookups).sendRequests other).1 = .ok b') {i : Nat}
    (hi : i < lookups.length)
    (hsame : Entries.get? (Batch.key i) otherRoot = Entries.get? (Batch.key i) root) :
    b'.responses[i]? = b.responses[i]? := by
  obtain ⟨answer, hanswer, hparse⟩ := h.getElem?_responses hb hi
  obtain ⟨answer', hanswer', hparse'⟩ := ho.getElem?_responses hb' hi
  rw [BatchResponse.parseOne_congr hsame, hparse] at hparse'
  cases hparse'
  rw [hanswer, hanswer']

end

end BatchReply

/-- When there is an object for each lookup of a batch, and each one decodes or is that of a rejected
lookup, then each gives a response of its own. Objects of rejected lookups in the place of others
leave the rest of the batch as it is. A payload may not be missing as long as all is well. -/
theorem rejected_lookups_break_no_batch (config : Config) {lookups : List Lookup}
    (hne : lookups ≠ []) :
    (∀ (transport : Transport) (body : String) (root : Members),
      BatchReply transport lookups body root →
      (∀ i (hi : i < lookups.length), lookups[i].kind.ToleratedAt root (Batch.key i)) →
      ∃ b, ((Client.queued config lookups).sendRequests transport).1 = .ok b ∧
        b.responses.length = lookups.length ∧
        ∀ (i : Nat) (hi : i < lookups.length) (members : Members),
          Entries.get? (Batch.key i) root = some (.object members) →
          ∃ r, b.responses[i]? = some (Batch.key i, r) ∧ lookups[i].kind.Gives members r) ∧
    (∀ (transport other : Transport) (body otherBody : String) (root otherRoot : Members)
        (b : BatchResponse),
      BatchReply transport lookups body root → BatchReply other lookups otherBody otherRoot →
      ((Client.queued config lookups).sendRequests transport).1 = .ok b →
      (∀ i < lookups.length,
        Entries.get? (Batch.key i) otherRoot = Entries.get? (Batch.key i) root ∨
          RejectedAt otherRoot (Batch.key i)) →
      ∃ b', ((Client.queued config lookups).sendRequests other).1 = .ok b' ∧
        b'.responses.length = b.responses.length ∧
        ∀ i < lookups.length,
          Entries.get? (Batch.key i) otherRoot = Entries.get? (Batch.key i) root →
          b'.responses[i]? = b.responses[i]?) ∧
    ∀ kind ∈ ResponseKind.dataKinds, ∀ members : Members, Bare members →
      (∀ text, Json.parse text = .ok (.object members) →
        kind.parse text = .error (.missingField "response")) ∧
      ∀ (transport : Transport) (body : String) (root : Members) (i : Nat)
          (hi : i < lookups.length), BatchReply transport lookups body root →
        lookups[i].kind = kind → Entries.get? (Batch.key i) root = some (.object members) →
        (∀ j (hj : j < i), lookups[j].kind.ToleratedAt root (Batch.key j)) →
        ((Client.queued config lookups).sendRequests transport).1 =
          .error (.response (.missingField "response")) := by
  refine ⟨?_, ?_, ?_⟩
  · intro transport body root h hparts
    obtain ⟨b, hb⟩ := h.exists_responses_of_tolerated hne hparts
    exact ⟨b, hb, h.length_responses hb hne, fun i hi members => h.gives_of_responses hb hi⟩
  · intro transport other body otherBody root otherRoot b h ho hb hreplaced
    obtain ⟨b', hb'⟩ := h.exists_responses_of_replaced ho hb hne hreplaced
    refine ⟨b', hb', ?_, fun i hi => h.getElem?_responses_of_same ho hb hb' hi⟩
    rw [ho.length_responses hb' hne, h.length_responses hb hne]
  · intro kind hkind members hbare
    refine ⟨fun text htext => hbare.parse hkind htext, ?_⟩
    rintro transport body root i hi h rfl hkey hbefore
    exact h.sendRequests_of_bare hi hkey hbare hkind hbefore

/-- A raw lookup and a read, of which the read is rejected, then both, then neither. -/
theorem rejected_lookups_break_no_batch_raw_and_read :
    let good : Members := [("status", .string "ok"), ("version", .string "3")]
    let rejected : Members := [("status", .string "error"), ("version", .string "3")]
    let body (first second : Members) :=
      (Json.object [("q0", .object first), ("q1", .object second)]).render
    let send (first second : Members) :=
      ((Client.queued default [.raw "p" ∅, .fetch "places" ∅]).sendRequests fun _ _ =>
        .ok (body first second)).1
    (∃ b b', send good rejected = .ok b ∧ send rejected rejected = .ok b' ∧
      b.responses[1]? = some
        ("q1", .read ⟨(Json.object rejected).render, ⟨"3", "error", none, 0⟩, []⟩) ∧
      b'.responses[1]? = b.responses[1]?) ∧
    send good good = .error (.response (.missingField "response")) := by
  intro good rejected body send
  have hrejected : Rejected rejected "3" "error" := ⟨.string rfl, .string rfl, by decide, rfl⟩
  have hbare : Bare good := ⟨⟨"3", .string rfl⟩, .string rfl, rfl⟩
  have hgood : ResponseKind.raw.Tolerates good := by
    have hparse : Json.parse (Json.object good).render = .ok (.object good) :=
      parse_render (by decide) (by decide) nofun
    exact .inl ⟨_, _, hparse, ResponseKind.parse_of_object hparse _⟩
  let lookups : List Lookup := [.raw "p" ∅, .fetch "places" ∅]
  have hone : BatchReply (fun _ _ => .ok (body good rejected)) lookups (body good rejected)
      [("q0", .object good), ("q1", .object rejected)] :=
    ⟨rfl, parse_render (by decide) (by decide) nofun⟩
  have hboth : BatchReply (fun _ _ => .ok (body rejected rejected)) lookups
      (body rejected rejected) [("q0", .object rejected), ("q1", .object rejected)] :=
    ⟨rfl, parse_render (by decide) (by decide) nofun⟩
  have hneither : BatchReply (fun _ _ => .ok (body good good)) lookups (body good good)
      [("q0", .object good), ("q1", .object good)] :=
    ⟨rfl, parse_render (by decide) (by decide) nofun⟩
  obtain ⟨hparts, hreplaced, hmissing⟩ :=
    rejected_lookups_break_no_batch default (List.cons_ne_nil _ _ : lookups ≠ [])
  refine ⟨?_, ?_⟩
  · obtain ⟨b, hb, -, hgives⟩ := hparts _ _ _ hone fun i hi =>
      match i, hi with
      | 0, _ => ⟨good, rfl, hgood⟩
      | 1, _ => ⟨rejected, rfl, .inr ⟨_, _, hrejected⟩⟩
    obtain ⟨r, hr, hgives⟩ := hgives 1 (by decide) rejected rfl
    obtain ⟨v, s, hversion, hstatus, rfl⟩ := hgives.rejected _ _ hrejected
    obtain rfl := hversion.same nofun
    obtain rfl := hstatus.same nofun
    obtain ⟨b', hb', -, hsame⟩ := hreplaced _ _ _ _ _ _ b hone hboth hb fun i hi =>
      match i, hi with
      | 0, _ => .inr ⟨rejected, _, _, rfl, hrejected⟩
      | 1, _ => .inl rfl
    exact ⟨b, b', hb, hb', hr, hsame 1 (by decide) rfl⟩
  · refine (hmissing .read (by decide) good hbare).2 _ _ _ 1 (by decide) hneither rfl rfl ?_
    intro j hj
    obtain rfl : j = 0 := Nat.lt_one_iff.mp hj
    exact ⟨good, rfl, hgood⟩

/-- The version of the rejected lookup is a number that is not read back from its text. -/
theorem rejected_lookup_with_version_not_read_back :
    ¬ ∀ (config : Config) (lookups : List Lookup) (transport : Transport) (body : String)
        (root : Members), lookups ≠ [] → BatchReply transport lookups body root →
      (∀ i (hi : i < lookups.length), lookups[i].kind.ToleratedAt root (Batch.key i)) →
      ∃ b, ((Client.queued config lookups).sendRequests transport).1 = .ok b ∧
        ∀ (i : Nat) (members : Members) (version status : String), i < lookups.length →
          Entries.get? (Batch.key i) root = some (.object members) →
          Rejected members version status →
          ∃ r, b.responses[i]? = some (Batch.key i, r) ∧ r.envelope.version = version ∧
            r.envelope.status = status := by
  intro hcarried
  let written : Members := [("status", .string "error"), ("version", .double .threeE50)]
  let members : Members := [("status", .string "error"), ("version", .double .aboveThreeE50)]
  let body := (Json.object [("q0", .object written)]).render
  let lookups : List Lookup := [.raw "p" ∅]
  have hwritten : rereadMembers written = members := by
    change [("status", Json.string "error"), ("version", .double Binary64.threeE50.reread)] = _
    rw [Binary64.reread_threeE50]
  have hmembers : rereadMembers members = written := by
    change [("status", Json.string "error"), ("version", .double Binary64.aboveThreeE50.reread)] = _
    rw [Binary64.reread_aboveThreeE50]
  have h : BatchReply (fun _ _ => .ok body) lookups body [("q0", .object members)] := by
    refine ⟨rfl, hwritten ▸ parse_render_eq (v := .object [("q0", .object written)]) ?_ ?_⟩
    · decide
    · decide
  have hrejected : Rejected members (Json.Number.render (.double .aboveThreeE50)) "error" :=
    ⟨.number rfl, .string rfl, by decide, rfl⟩
  obtain ⟨b, hb, hversion⟩ := hcarried default lookups _ body _ (List.cons_ne_nil _ _) h fun i hi =>
    match i, hi with
    | 0, _ => ⟨members, rfl, .inr ⟨_, _, hrejected⟩⟩
  obtain ⟨r, hr, hclaimed, -⟩ := hversion 0 members _ _ (by decide) rfl hrejected
  obtain ⟨r', hr', hgives⟩ := h.gives_of_responses hb (i := 0) (by decide) rfl
  cases hr.symm.trans hr'
  obtain ⟨v, s, hrespelled, -, rfl⟩ := hgives.rejected _ _ hrejected
  have hafter := hrespelled.hafter
  rw [hmembers] at hafter
  cases hafter with
  | string hstring => cases hstring
  | number hnumber =>
    cases hnumber
    exact Binary64.render_threeE50_ne hclaimed

end TableQuery
