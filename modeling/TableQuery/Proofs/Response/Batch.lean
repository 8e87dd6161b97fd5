import TableQuery.Proofs.Json.Reading
import TableQuery.Proofs.Json.RoundTrip
import TableQuery.Proofs.Response.Decoding
import TableQuery.Response.Batch

/-!
# Reading a batch response

Each object of a batch is written out and read again before it is decoded. Nothing is lost on the
way: a batch is read as if every object was decoded where it stands, in the order of the requests.
-/

namespace TableQuery.BatchResponse

/-- What is held for the request is an object that decodes as the response. -/
def Answers (root : Members) (request : String × ResponseKind) (answer : String × AnyResponse) :
    Prop :=
  answer.1 = request.1 ∧ ∃ members, Entries.get? request.1 root = some (.object members) ∧
    request.2.decode (Json.object members).render members = .ok answer.2

/-- What is wrong with what is held for the request. -/
inductive Fails (root : Members) : String × ResponseKind → ResponseError → Prop
  | absent {key : String} {kind : ResponseKind} (h : Entries.get? key root = none) :
      Fails root (key, kind) (.missingSubResponse key)
  | notObject {key : String} {kind : ResponseKind} {v : Json}
      (h : Entries.get? key root = some v) (hv : v.isObject = false) :
      Fails root (key, kind) (.unexpectedType key "object")
  | undecodable {key : String} {kind : ResponseKind} {members : Members} {e : ResponseError}
      (h : Entries.get? key root = some (.object members))
      (he : kind.decode (Json.object members).render members = .error e) : Fails root (key, kind) e

/-- The doubles in the objects that are held for the requests are read back from their text. -/
def ListedReadBack (text : String) (requests : List (String × ResponseKind)) : Prop :=
  ∀ root, Json.parse text = .ok (.object root) → ∀ request ∈ requests, ∀ members,
    Entries.get? request.1 root = some (.object members) → (Json.object members).DoublesReadBack

variable {text : String} {root : Members} {requests : List (String × ResponseKind)}

theorem listedReadBack_of_root (hroot : Json.parse text = .ok (.object root))
    (h : ∀ e ∈ root, e.2.DoublesReadBack) : ListedReadBack text requests := by
  intro root' hroot' request _ members hmembers
  cases hroot.symm.trans hroot'
  exact h _ (Entries.mem_of_get? hmembers)

/-! ## One request -/

theorem parse_render_member (hroot : Json.parse text = .ok (.object root)) {key : String}
    {members : Members} (hkey : Entries.get? key root = some (.object members))
    (hdoubles : (Json.object members).DoublesReadBack) :
    Json.parse (Json.object members).render = .ok (.object members) := by
  have hfits := (Json.membersFit_of_fits (Json.fits_of_parse hroot)).2 _ (Entries.mem_of_get? hkey)
  have hdeep : (Json.object members).nesting ≤ Json.maxNesting := Nat.le_of_succ_le hfits.2
  exact Json.parse_render hfits.1 hdeep hdoubles

theorem parse_render_eq_decode (hroot : Json.parse text = .ok (.object root)) {key : String}
    {members : Members} (hkey : Entries.get? key root = some (.object members))
    (hdoubles : (Json.object members).DoublesReadBack) (kind : ResponseKind) :
    kind.parse (Json.object members).render = kind.decode (Json.object members).render members :=
  ResponseKind.parse_of_object (parse_render_member hroot hkey hdoubles) kind

theorem parseOne_eq_ok_iff (hroot : Json.parse text = .ok (.object root))
    {request : String × ResponseKind} {answer : String × AnyResponse}
    (hdoubles : ∀ members, Entries.get? request.1 root = some (.object members) →
      (Json.object members).DoublesReadBack) :
    parseOne root request = .ok answer ↔ Answers root request answer := by
  obtain ⟨key, kind⟩ := request
  unfold parseOne Answers
  split
  next members hkey =>
    rw [parse_render_eq_decode hroot hkey (hdoubles members hkey), map_eq_ok_iff]
    constructor
    · rintro ⟨response, hresponse, rfl⟩
      exact ⟨rfl, members, hkey, hresponse⟩
    · rintro ⟨hanswer, others, hothers, hdecode⟩
      cases hkey.symm.trans hothers
      exact ⟨answer.2, hdecode, Prod.ext hanswer.symm rfl⟩
  next v hnot hkey =>
    refine iff_of_false nofun ?_
    rintro ⟨-, members, hmembers, -⟩
    cases hkey.symm.trans hmembers
    exact hnot members rfl
  next hkey =>
    refine iff_of_false nofun ?_
    rintro ⟨-, members, hmembers, -⟩
    cases hkey.symm.trans hmembers

theorem parseOne_eq_error_iff (hroot : Json.parse text = .ok (.object root))
    {request : String × ResponseKind} {e : ResponseError}
    (hdoubles : ∀ members, Entries.get? request.1 root = some (.object members) →
      (Json.object members).DoublesReadBack) :
    parseOne root request = .error e ↔ Fails root request e := by
  obtain ⟨key, kind⟩ := request
  unfold parseOne
  split
  next members hkey =>
    rw [parse_render_eq_decode hroot hkey (hdoubles members hkey), map_eq_error_iff]
    constructor
    · intro he
      exact .undecodable hkey he
    · intro hfails
      cases hfails with
      | absent h => cases hkey.symm.trans h
      | notObject h hv => cases hkey.symm.trans h; cases hv
      | undecodable h he => cases hkey.symm.trans h; exact he
  next v hnot hkey =>
    constructor
    · intro he
      cases he
      exact .notObject hkey (by cases v <;> first | rfl | exact absurd rfl (hnot _))
    · intro hfails
      cases hfails with
      | absent h => cases hkey.symm.trans h
      | notObject h hv => rfl
      | undecodable h he => cases hkey.symm.trans h; exact absurd rfl (hnot _)
  next hkey =>
    constructor
    · intro he
      cases he
      exact .absent hkey
    · intro hfails
      cases hfails with
      | absent h => rfl
      | notObject h hv => cases hkey.symm.trans h
      | undecodable h he => cases hkey.symm.trans h

theorem Fails.isShape {request : String × ResponseKind} {e : ResponseError}
    (h : Fails root request e) : e.IsShape := by
  cases h with
  | absent h => trivial
  | notObject h hv => trivial
  | undecodable h he => exact ResponseKind.onlyShape_decode _ _ _ e he

/-! ## All requests -/

theorem parse_of_root (hroot : Json.parse text = .ok (.object root)) :
    parse text requests = (requests.mapM (parseOne root)).map (⟨text, ·⟩) := by
  unfold parse
  rw [Response.parseRoot_eq_ok_iff.mpr hroot]
  change (requests.mapM (parseOne root) >>= fun responses => _) = _
  cases requests.mapM (parseOne root) <;> rfl

theorem root_of_parse_eq_ok {b : BatchResponse} (h : parse text requests = .ok b) :
    ∃ root, Json.parse text = .ok (.object root) := by
  obtain ⟨root, hroot, -⟩ := bind_eq_ok_iff.mp h
  exact ⟨root, Response.parseRoot_eq_ok_iff.mp hroot⟩

theorem parse_eq_ok_iff (hdoubles : ListedReadBack text requests) {b : BatchResponse} :
    parse text requests = .ok b ↔ b.text = text ∧ ∃ root, Json.parse text = .ok (.object root) ∧
      List.Forall₂ (Answers root) requests b.responses := by
  have hanswers : ∀ root, Json.parse text = .ok (.object root) → ∀ answers,
      requests.mapM (parseOne root) = .ok answers ↔ List.Forall₂ (Answers root) requests answers := by
    intro root hroot answers
    rw [mapM_eq_ok_iff]
    exact forall₂_iff_of_forall_mem fun request hrequest answer =>
      parseOne_eq_ok_iff hroot (hdoubles root hroot request hrequest)
  constructor
  · intro h
    obtain ⟨root, hroot⟩ := root_of_parse_eq_ok h
    rw [parse_of_root hroot, map_eq_ok_iff] at h
    obtain ⟨answers, hmap, rfl⟩ := h
    exact ⟨rfl, root, hroot, (hanswers root hroot answers).mp hmap⟩
  · rintro ⟨rfl, root, hroot, hforall⟩
    rw [parse_of_root hroot, map_eq_ok_iff]
    exact ⟨b.responses, (hanswers root hroot b.responses).mpr hforall, rfl⟩

theorem parse_eq_error_iff (hdoubles : ListedReadBack text requests)
    (hroot : Json.parse text = .ok (.object root)) {e : ResponseError} :
    parse text requests = .error e ↔ ∃ before request after, requests = before ++ request :: after ∧
      (∀ earlier ∈ before, ∃ answer, Answers root earlier answer) ∧ Fails root request e := by
  have hreads : ∀ request ∈ requests, ∀ members,
      Entries.get? request.1 root = some (.object members) → (Json.object members).DoublesReadBack :=
    hdoubles root hroot
  rw [parse_of_root hroot, map_eq_error_iff, mapM_eq_error_iff]
  constructor
  · rintro ⟨before, request, after, rfl, hbefore, hrequest⟩
    refine ⟨before, request, after, rfl, fun earlier hearlier => ?_, ?_⟩
    · obtain ⟨answer, hanswer⟩ := hbefore earlier hearlier
      exact ⟨answer, (parseOne_eq_ok_iff hroot (hreads earlier (by simp [hearlier]))).mp hanswer⟩
    · exact (parseOne_eq_error_iff hroot (hreads request (by simp))).mp hrequest
  · rintro ⟨before, request, after, rfl, hbefore, hrequest⟩
    refine ⟨before, request, after, rfl, fun earlier hearlier => ?_, ?_⟩
    · obtain ⟨answer, hanswer⟩ := hbefore earlier hearlier
      exact ⟨answer, (parseOne_eq_ok_iff hroot (hreads earlier (by simp [hearlier]))).mpr hanswer⟩
    · exact (parseOne_eq_error_iff hroot (hreads request (by simp))).mpr hrequest

theorem parseOne_congr {other : Members} {request : String × ResponseKind}
    (h : Entries.get? request.1 root = Entries.get? request.1 other) :
    parseOne root request = parseOne other request := by
  unfold parseOne
  rw [h]

theorem find?_eq_some_iff {answers : List (String × AnyResponse)}
    (h : List.Forall₂ (Answers root) requests answers) (key : String) (response : AnyResponse) :
    (answers.find? (·.1 == key)).map (·.2) = some response ↔
      ∃ before kind after, requests = before ++ (key, kind) :: after ∧
        key ∉ before.map (·.1) ∧ answers[before.length]? = some (key, response) := by
  induction h with
  | nil => simp
  | @cons request answer requests answers hanswer _ ih =>
    obtain ⟨k, kind⟩ := request
    obtain ⟨k', first⟩ := answer
    obtain rfl : k' = k := hanswer.1
    by_cases hkey : k' = key
    · subst hkey
      rw [List.find?_cons_of_pos (by simp)]
      constructor
      · intro hfirst
        cases hfirst
        exact ⟨[], kind, requests, rfl, List.not_mem_nil, rfl⟩
      · rintro ⟨before, kind', after, hsplit, hbefore, hresponse⟩
        cases before with
        | nil => cases hresponse; rfl
        | cons b before =>
          cases hsplit
          exact absurd List.mem_cons_self hbefore
    · rw [List.find?_cons_of_neg (by simpa using hkey), ih]
      constructor
      · rintro ⟨before, kind', after, rfl, hbefore, hresponse⟩
        exact ⟨(k', kind) :: before, kind', after, rfl,
          List.not_mem_cons_of_ne_of_not_mem (Ne.symm hkey) hbefore, hresponse⟩
      · rintro ⟨before, kind', after, hsplit, hbefore, hresponse⟩
        cases before with
        | nil => cases hsplit; exact absurd rfl hkey
        | cons b before =>
          cases hsplit
          exact ⟨before, kind', after, rfl, List.not_mem_of_not_mem_cons hbefore, hresponse⟩

/-- A batch is its requests answered one by one: it succeeds when every request has its object and
that decodes, the answers are in the order of the requests, what goes wrong first is what goes wrong,
and nothing else that the text holds matters. -/
theorem batch_is_read_pointwise (text : String) (requests : List (String × ResponseKind))
    (hdoubles : ListedReadBack text requests) :
    ((∃ b, parse text requests = .ok b) ↔ ∃ root, Json.parse text = .ok (.object root) ∧
      ∀ request ∈ requests, ∃ answer, Answers root request answer) ∧
    (∀ b, parse text requests = .ok b ↔ b.text = text ∧ ∃ root,
      Json.parse text = .ok (.object root) ∧ List.Forall₂ (Answers root) requests b.responses) ∧
    (∀ b, parse text requests = .ok b → ∀ key response, b.get? key = some response ↔
      ∃ before kind after, requests = before ++ (key, kind) :: after ∧ key ∉ before.map (·.1) ∧
        b.responses[before.length]? = some (key, response)) ∧
    ∀ root, Json.parse text = .ok (.object root) →
      (∀ e, parse text requests = .error e ↔ ∃ before request after,
        requests = before ++ request :: after ∧
        (∀ earlier ∈ before, ∃ answer, Answers root earlier answer) ∧ Fails root request e) ∧
      (∀ e, parse text requests = .error e → e.IsShape) ∧
      ∀ other otherRoot, Json.parse other = .ok (.object otherRoot) →
        (∀ request ∈ requests, Entries.get? request.1 root = Entries.get? request.1 otherRoot) →
        (parse text requests).map (·.responses) = (parse other requests).map (·.responses) := by
  refine ⟨?_, fun b => parse_eq_ok_iff hdoubles, ?_, ?_⟩
  · constructor
    · rintro ⟨b, hb⟩
      obtain ⟨-, root, hroot, hforall⟩ := (parse_eq_ok_iff hdoubles).mp hb
      exact ⟨root, hroot, exists_forall₂_iff.mp ⟨b.responses, hforall⟩⟩
    · rintro ⟨root, hroot, hanswers⟩
      obtain ⟨answers, hforall⟩ := exists_forall₂_iff.mpr hanswers
      exact ⟨⟨text, answers⟩, (parse_eq_ok_iff hdoubles).mpr ⟨rfl, root, hroot, hforall⟩⟩
  · intro b hb key response
    obtain ⟨-, root, -, hforall⟩ := (parse_eq_ok_iff hdoubles).mp hb
    exact find?_eq_some_iff hforall key response
  · intro root hroot
    refine ⟨fun e => parse_eq_error_iff hdoubles hroot, ?_, ?_⟩
    · intro e he
      obtain ⟨before, request, after, -, -, hfails⟩ := (parse_eq_error_iff hdoubles hroot).mp he
      exact hfails.isShape
    · intro other otherRoot hother hagree
      have hsame : requests.mapM (parseOne root) = requests.mapM (parseOne otherRoot) :=
        mapM_congr fun request hrequest => parseOne_congr (hagree request hrequest)
      rw [parse_of_root hroot, parse_of_root hother, hsame]
      cases requests.mapM (parseOne otherRoot) <;> rfl

theorem batch_is_read_pointwise_absent_key :
    let answer : Members := [("status", .string "ok"), ("version", .double (.zero true))]
    let text := (Json.object [("q0", .object answer)]).render
    let requests := [("q0", .flag), ("q1", .raw), ("q0", .read)]
    ListedReadBack text requests ∧ parse text requests = .error (.missingSubResponse "q1") := by
  intro answer text requests
  have hanswer : (Json.object answer).DoublesReadBack := by
    intro x hx
    rw [List.mem_singleton.mp hx]
    exact Binary64.readsBack_zero true
  have hascending : Ascending answer := by
    unfold Ascending
    decide
  have hordered : (Json.object [("q0", .object answer)]).Ordered :=
    ⟨List.pairwise_singleton .., ⟨hascending, trivial, trivial, trivial⟩, trivial⟩
  have hroot : Json.parse text = .ok (.object [("q0", .object answer)]) :=
    Json.parse_render hordered (by decide) hanswer
  have hdoubles : ListedReadBack text requests := by
    refine listedReadBack_of_root hroot fun e he => ?_
    rw [List.mem_singleton.mp he]
    exact hanswer
  have herror := ((batch_is_read_pointwise text requests hdoubles).2.2.2 _ hroot).1
  refine ⟨hdoubles, (herror (.missingSubResponse "q1")).mpr
    ⟨[("q0", .flag)], ("q1", .raw), [("q0", .read)], rfl, ?_, .absent rfl⟩⟩
  intro earlier hearlier
  obtain rfl := List.mem_singleton.mp hearlier
  let envelope : Envelope := ⟨Json.Number.render (.double (.zero true)), "ok", none, 0⟩
  exact ⟨("q0", .flag ⟨_, envelope, ()⟩), rfl, answer, rfl, rfl⟩

end TableQuery.BatchResponse
