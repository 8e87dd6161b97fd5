import TableQuery.Proofs.Yaml.Lines
import TableQuery.Yaml.Block

/-!
# Literal blocks are read back

A block holds the lines of a text, each indented by two spaces but the empty ones. Its header says
what becomes of the breaks at its end, and the first line how far it is indented, unless the header
does.
-/

namespace TableQuery.Yaml

namespace Block

/-! ## In front of a line -/

/-- What is found in front of the lines of a text: its empty lines, and then the first line or what
comes after the block. -/
def leadOf (cs after : List Char) : Lead :=
  if (cs.dropWhile isBreak).isEmpty then ⟨cs.takeWhile isBreak, 0, 0, after⟩
  else ⟨cs.takeWhile isBreak, 2, 2, indentLines false (cs.dropWhile isBreak) ++ after⟩

theorem leadOf_breaks {breaks : List Char} (h : ∀ c ∈ breaks, isBreak c = true)
    (after : List Char) : leadOf breaks after = ⟨breaks, 0, 0, after⟩ := by
  have htake : breaks.takeWhile isBreak = breaks := List.takeWhile_eq_self_iff.mpr h
  have hdrop : breaks.dropWhile isBreak = [] := List.dropWhile_eq_nil_iff.mpr h
  simp [leadOf, htake, hdrop]

theorem leadOf_lines {breaks lines : List Char} (h : ∀ c ∈ breaks, isBreak c = true)
    (hne : lines ≠ []) (hlines : ∀ c ∈ lines.head?, isBreak c = false) (after : List Char) :
    leadOf (breaks ++ lines) after = ⟨breaks, 2, 2, indentLines false lines ++ after⟩ := by
  rw [leadOf, Text.takeWhile_span h hlines, Text.dropWhile_span h hlines]
  simp [hne]

theorem takeLead?_breaks {indent : Option Nat} {breaks rest : List Char} {fuel : Nat} {lead : Lead}
    (h : ∀ c ∈ breaks, isBreak c = true) (hlead : takeLead? indent fuel rest = some lead) :
    takeLead? indent (fuel + breaks.length) (breaks ++ rest) =
      some { lead with breaks := breaks ++ lead.breaks } := by
  induction breaks with
  | nil => exact hlead
  | cons c breaks ih =>
    obtain ⟨hc, hbreaks⟩ := List.forall_mem_cons.mp h
    have hspace : c ≠ ' ' := ne_of_test hc (by decide)
    have htab : c ≠ '\t' := ne_of_test hc (by decide)
    have hcolumn : indent.elim 0 (min 0) = 0 := by cases indent <;> simp
    rw [List.length_cons, ← Nat.add_assoc, List.cons_append]
    simp [takeLead?, hspace, htab, hcolumn, hc, ih hbreaks]

theorem takeLead?_line {indent : Option Nat} {c : Char} {more : List Char} (hc : isBreak c = false)
    (htab : c ≠ '\t') (hindent : indent = some 2 ∨ indent = none ∧ c ≠ ' ') (fuel : Nat) :
    takeLead? indent (fuel + 1) (' ' :: ' ' :: c :: more) = some ⟨[], 2, 2, c :: more⟩ := by
  rcases hindent with rfl | ⟨rfl, hspace⟩
  · simp [takeLead?, htab, hc]
  · simp [takeLead?, htab, hc, hspace]

theorem takeLead?_end {after : List Char} (hafter : BeginsToken after) (indent : Option Nat)
    (fuel : Nat) : takeLead? indent (fuel + 1) after = some ⟨[], 0, 0, after⟩ := by
  have hcolumn : indent.elim 0 (min 0) = 0 := by cases indent <;> simp
  cases after with
  | nil => simp [takeLead?, hcolumn]
  | cons c after =>
    obtain ⟨hgap, -, -⟩ := hafter c rfl
    have hspace : ' ' ≠ c := ne_of_test (by decide) hgap
    have htab : '\t' ≠ c := ne_of_test (by decide) hgap
    simp [takeLead?, hcolumn, hspace.symm, htab.symm, not_isBreak hgap]

theorem takeLead?_known {cs after : List Char} (h : ∀ c ∈ cs, isPrintable c = true)
    (hafter : BeginsToken after) {fuel : Nat} (hfuel : cs.length < fuel) :
    takeLead? (some 2) fuel (indentLines true cs ++ after) = some (leadOf cs after) := by
  obtain ⟨breaks, lines, rfl, hbreaks, hlines⟩ := Text.exists_span isBreak cs
  obtain ⟨more, rfl⟩ : ∃ more, fuel = more + 1 + breaks.length :=
    ⟨fuel - breaks.length - 1, by simp only [List.length_append] at hfuel; omega⟩
  rw [indentLines_breaks hbreaks, List.append_assoc]
  cases lines with
  | nil =>
    have hread := takeLead?_breaks hbreaks (takeLead?_end hafter (some 2) more)
    simpa [leadOf_breaks hbreaks, indentLines] using hread
  | cons c lines =>
    have hc : isBreak c = false := hlines c rfl
    have htab : c ≠ '\t' := ne_of_test (h c (by simp)) (by decide)
    have hline :=
      @takeLead?_line (some 2) c (indentLines false lines ++ after) hc htab (.inl rfl) more
    rw [leadOf_lines hbreaks (List.cons_ne_nil c lines) hlines, indentLines_true hc]
    have hfirst : indentLines false (c :: lines) = c :: indentLines false lines := by
      simp [indentLines, hc]
    rw [hfirst]
    simpa using takeLead?_breaks hbreaks hline

theorem takeLead?_unknown {c : Char} {cs after : List Char} (hprintable : isPrintable c = true)
    (hc : isBreak c = false) (hspace : c ≠ ' ') (fuel : Nat) :
    takeLead? none (fuel + 1) (indentLines true (c :: cs) ++ after) =
      some (leadOf (c :: cs) after) := by
  have htab : c ≠ '\t' := ne_of_test hprintable (by decide)
  have hfirst : indentLines false (c :: cs) = c :: indentLines false cs := by simp [indentLines, hc]
  have hlead := @leadOf_lines [] (c :: cs) (by simp) (by simp) (by simpa using hc) after
  rw [List.nil_append] at hlead
  rw [hlead, indentLines_true hc, hfirst]
  exact takeLead?_line hc htab (.inr ⟨rfl, hspace⟩) fuel

/-! ## The lines -/

/-- What a block holds of the breaks at its end, `body` being what comes before them. -/
def finish (lineEnd body breaks : List Char) (chomp : Chomp) : List Char :=
  if body.isEmpty then chompEnd lineEnd breaks chomp
  else lineEnd ++ body ++ chompEnd (breaks.take 1) (breaks.drop 1) chomp

theorem readLines?_end (chomp : Chomp) (fuel : Nat) (lineEnd : List Char) (hadBlank : Bool)
    (breaks after : List Char) :
    readLines? true chomp 2 (fuel + 1) lineEnd hadBlank ⟨breaks, 0, 0, after⟩ =
      some (chompEnd lineEnd breaks chomp, after) := by
  simp [readLines?]

/-- One line: the break after it is known only when the next one is. -/
theorem readLines?_line {chomp : Chomp} {fuel : Nat} {line cs after text rest : List Char}
    {b : Char}
    (hne : line ≠ []) (hline : ∀ c ∈ line, isBreak c = false) (hb : isBreak b = true)
    (hcs : ∀ c ∈ cs, isPrintable c = true) (hafter : BeginsToken after)
    (hnext : ∀ hadBlank,
      readLines? true chomp 2 fuel [b] hadBlank (leadOf cs after) = some (text, rest))
    (lineEnd breaks : List Char) (hadBlank : Bool) :
    readLines? true chomp 2 (fuel + 1) lineEnd hadBlank
        ⟨breaks, 2, 2, indentLines false (line ++ b :: cs) ++ after⟩ =
      some (lineEnd ++ breaks ++ line ++ text, rest) := by
  have hrest : indentLines false (line ++ b :: cs) ++ after =
      line ++ b :: (indentLines true cs ++ after) := by
    rw [indentLines_line hline, indentLines_break hb, List.append_assoc]
    rfl
  have hnot : ∀ c ∈ line, (!isBreak c) = true := by simpa using hline
  have hstop : ∀ c ∈ (b :: (indentLines true cs ++ after)).head?, (!isBreak c) = false := by
    simpa using hb
  have htake := Text.takeWhile_span hnot hstop
  have hdrop : toBreak (line ++ b :: (indentLines true cs ++ after)) =
      b :: (indentLines true cs ++ after) := Text.dropWhile_span hnot hstop
  have hlead : takeLead? (some 2) ((indentLines true cs ++ after).length + 2)
      (indentLines true cs ++ after) = some (leadOf cs after) := by
    refine takeLead?_known hcs hafter ?_
    have := length_le_indentLines true cs
    rw [List.length_append]
    omega
  rw [hrest, readLines?]
  simp only [List.length_append] at hlead
  simp [hne, htake, hdrop, hnext, join, hlead]

theorem exists_line {body : List Char} (hne : body ≠ [])
    (hlast : ∀ c ∈ body.getLast?, isBreak c = false) :
    ∃ breaks line more, body = breaks ++ (line ++ more) ∧ line ≠ [] ∧
      (∀ c ∈ breaks, isBreak c = true) ∧ (∀ c ∈ line, isBreak c = false) ∧
      ∀ c ∈ more.head?, isBreak c = true := by
  obtain ⟨breaks, lines, rfl, hbreaks, hlines⟩ := Text.exists_span isBreak body
  obtain ⟨line, more, rfl, hline, hmore⟩ := Text.exists_span (fun c => !isBreak c) lines
  refine ⟨breaks, line, more, rfl, ?_, hbreaks, by simpa using hline, by simpa using hmore⟩
  rintro rfl
  cases more with
  | nil =>
    have hbody : breaks ≠ [] := by simpa using hne
    have hend := hlast _ (by simpa using List.getLast?_eq_some_getLast hbody)
    rw [hbreaks _ (List.getLast_mem hbody)] at hend
    cases hend
  | cons c more =>
    have hyes : isBreak c = true := by simpa using hmore c rfl
    rw [hlines c rfl] at hyes
    cases hyes

theorem finish_nil (lineEnd breaks : List Char) (chomp : Chomp) :
    finish lineEnd [] breaks chomp = chompEnd lineEnd breaks chomp := rfl

theorem finish_of_ne_nil {body : List Char} (hne : body ≠ []) (lineEnd breaks : List Char)
    (chomp : Chomp) : finish lineEnd body breaks chomp =
      lineEnd ++ body ++ chompEnd (breaks.take 1) (breaks.drop 1) chomp := by
  simp [finish, hne]

theorem readLines?_leadOf {chomp : Chomp} {body breaks after : List Char}
    (hbody : ∀ c ∈ body.getLast?, isBreak c = false) (hbreaks : ∀ c ∈ breaks, isBreak c = true)
    (hends : body ≠ [] → breaks ≠ []) (hprintable : ∀ c ∈ body ++ breaks, isPrintable c = true)
    (hafter : BeginsToken after) {fuel : Nat} (hfuel : (body ++ breaks).length < fuel)
    (lineEnd : List Char) (hadBlank : Bool) :
    readLines? true chomp 2 fuel lineEnd hadBlank (leadOf (body ++ breaks) after) =
      some (finish lineEnd body breaks chomp, after) := by
  -- By induction on the length of the text, a line at a time.
  induction fuel generalizing body breaks lineEnd hadBlank with
  | zero => cases hfuel
  | succ fuel ih =>
    by_cases hne : body = []
    · subst hne
      rw [List.nil_append, leadOf_breaks hbreaks, readLines?_end, finish_nil]
    · obtain ⟨lead, line, more, rfl, hline, hlead, hnot, hmore⟩ := exists_line hne hbody
      -- What is left after the line is a break and a shorter text.
      have hstep {b : Char} {cs text : List Char} (hcs : more ++ breaks = b :: cs)
          (hb : isBreak b = true)
          (hnext : cs.length < fuel → (∀ c ∈ cs, isPrintable c = true) → ∀ hadBlank,
            readLines? true chomp 2 fuel [b] hadBlank (leadOf cs after) = some (text, after)) :
          readLines? true chomp 2 (fuel + 1) lineEnd hadBlank
              (leadOf (lead ++ (line ++ more) ++ breaks) after) =
            some (lineEnd ++ lead ++ line ++ text, after) := by
        have htext : lead ++ (line ++ more) ++ breaks = lead ++ (line ++ b :: cs) := by
          simp [hcs]
        rw [htext] at hfuel hprintable ⊢
        have hshort : cs.length < fuel := by
          simp only [List.length_append, List.length_cons] at hfuel
          omega
        have hcsp : ∀ c ∈ cs, isPrintable c = true := fun c hc => hprintable c (by simp [hc])
        have hhead : ∀ c ∈ (line ++ b :: cs).head?, isBreak c = false := by
          obtain ⟨c, line, rfl⟩ := List.exists_cons_of_ne_nil hline
          simpa using hnot c List.mem_cons_self
        rw [leadOf_lines hlead (by simp) hhead]
        exact readLines?_line hline hnot hb hcsp hafter (hnext hshort hcsp) lineEnd lead hadBlank
      rw [finish_of_ne_nil hne]
      cases more with
      | nil =>
        obtain ⟨b, others, rfl⟩ := List.exists_cons_of_ne_nil (hends hne)
        obtain ⟨hb, hothers⟩ := List.forall_mem_cons.mp hbreaks
        have hread := hstep (List.nil_append _) hb fun hshort hcs =>
          @ih [] others (by simp) hothers (by simp) hcs hshort [b]
        simpa [finish_nil] using hread
      | cons b more =>
        have hmore' : more ≠ [] := by
          rintro rfl
          have hlast := hbody b (by simp)
          rw [hmore b rfl] at hlast
          cases hlast
        have hend : ∀ c ∈ more.getLast?, isBreak c = false := by
          intro c hc
          refine hbody c ?_
          simp only [List.getLast?_append, List.getLast?_cons, Option.mem_def.mp hc]
          rfl
        have hread := hstep rfl (hmore b rfl) fun hshort hcs =>
          @ih more breaks hend hbreaks (fun _ => hends hne) hcs hshort [b]
        simpa [finish_of_ne_nil hmore'] using hread

/-! ## The header -/

/-- Whether the header says how far the block is indented. -/
def increment? (cs : List Char) : Option Nat :=
  if cs.head?.any fun c => c = ' ' || isBreak c then some 2 else none

def chompOf (cs : List Char) : Chomp :=
  match (cs.reverse.takeWhile isBreak).length with
  | 0 => .strip
  | 1 => if cs.length = 1 then .keep else .clip
  | _ => .keep

def chompMark : Chomp → List Char
  | .strip => ['-']
  | .clip => []
  | .keep => ['+']

theorem blockHeader_eq (cs : List Char) :
    blockHeader cs =
      '|' :: ((increment? cs).elim [] (fun _ => ['2']) ++ chompMark (chompOf cs)) := by
  unfold blockHeader increment? chompOf
  generalize (cs.reverse.takeWhile isBreak).length = count
  generalize (cs.head?.any fun c => c = ' ' || isBreak c) = leads
  rcases count with _ | _ | count <;> cases leads <;> by_cases hone : cs.length = 1 <;>
    simp [hone, chompMark]

theorem readHeader?_written (increment : Option Nat) (h : increment = some 2 ∨ increment = none)
    (chomp : Chomp) (lines : List Char) :
    readHeader? (increment.elim [] (fun _ => ['2']) ++ chompMark chomp ++ '\n' :: lines) =
      some (chomp, increment, lines) := by
  rcases h with rfl | rfl <;> cases chomp <;> rfl

theorem finish_of_breaks {body breaks : List Char} (hbody : ∀ c ∈ body.getLast?, isBreak c = false)
    (hbreaks : ∀ c ∈ breaks, isBreak c = true) (hne : breaks ≠ []) :
    finish [] body breaks (chompOf (body ++ breaks)) = body ++ breaks := by
  have hcount : ((body ++ breaks).reverse.takeWhile isBreak).length = breaks.length := by
    rw [List.reverse_append, Text.takeWhile_span (by simpa using hbreaks) (by simpa using hbody),
      List.length_reverse]
  rw [chompOf, hcount]
  match breaks, hne with
  | [b], _ =>
    by_cases hnil : body = []
    · subst hnil
      rfl
    · have hlong : ¬ (body ++ [b]).length = 1 := by
        have := List.length_pos_iff.mpr hnil
        rw [List.length_append, List.length_singleton]
        omega
      rw [finish_of_ne_nil hnil]
      simp [hnil, chompEnd]
  | b :: b' :: others, _ =>
    by_cases hnil : body = []
    · subst hnil
      rfl
    · rw [finish_of_ne_nil hnil]
      simp [chompEnd]

/-- A text that does not end with a break is followed by one, which its header takes away. -/
theorem finish_of_line {body : List Char} (hbody : ∀ c ∈ body.getLast?, isBreak c = false)
    (hne : body ≠ []) (b : Char) : finish [] body [b] (chompOf body) = body := by
  have hcount : (body.reverse.takeWhile isBreak).length = 0 := by
    have := @Text.takeWhile_span Char isBreak [] body.reverse (by simp) (by simpa using hbody)
    rw [List.nil_append] at this
    rw [this]
    rfl
  rw [chompOf, hcount, finish_of_ne_nil hne]
  simp [chompEnd]

theorem lineEnding_block {cs : List Char} (hne : cs ≠ []) :
    lineEnding (block cs) = lineEnding cs := by
  have hlast : (block cs).getLast? = cs.getLast? := by
    rw [block, List.getLast?_append, List.getLast?_cons, getLast?_indentLines,
      List.getLast?_eq_some_getLast hne]
    rfl
  rw [lineEnding, hlast, lineEnding]

theorem exists_finish {cs : List Char} (hne : cs ≠ []) :
    ∃ body breaks, cs ++ lineEnding cs = body ++ breaks ∧
      (∀ c ∈ body.getLast?, isBreak c = false) ∧ (∀ c ∈ breaks, isBreak c = true) ∧ breaks ≠ [] ∧
      finish [] body breaks (chompOf cs) = cs := by
  obtain ⟨body, breaks, rfl, hbody, hbreaks⟩ := Text.exists_span_end isBreak cs
  by_cases hnil : breaks = []
  · subst hnil
    simp only [List.append_nil] at hne ⊢
    have hline : lineEnding body = ['\n'] := by
      rw [lineEnding, List.getLast?_eq_some_getLast hne]
      simp [hbody _ (List.getLast_mem_getLast? hne)]
    exact ⟨body, ['\n'], by rw [hline], hbody, List.forall_mem_singleton.mpr isBreak_lineFeed,
      List.cons_ne_nil _ _, finish_of_line hbody hne '\n'⟩
  · have hline : lineEnding (body ++ breaks) = [] := by
      rw [lineEnding, List.getLast?_append, List.getLast?_eq_some_getLast hnil]
      simp [hbreaks _ (List.getLast_mem hnil)]
    exact ⟨body, breaks, by rw [hline, List.append_nil], hbody, hbreaks, hnil,
      finish_of_breaks hbody hbreaks hnil⟩

theorem takeLead?_increment {cs more after : List Char} (hne : cs ≠ [])
    (h : ∀ c ∈ cs ++ more, isPrintable c = true) (hafter : BeginsToken after) {fuel : Nat}
    (hfuel : (cs ++ more).length < fuel) :
    takeLead? (increment? cs) fuel (indentLines true (cs ++ more) ++ after) =
        some (leadOf (cs ++ more) after) ∧
      (increment? cs).getD (max (leadOf (cs ++ more) after).width 1) = 2 := by
  rw [increment?]
  split
  next => exact ⟨takeLead?_known h hafter hfuel, rfl⟩
  next hlead =>
    obtain ⟨c, cs, rfl⟩ := List.exists_cons_of_ne_nil hne
    obtain ⟨hspace, hbreak⟩ : c ≠ ' ' ∧ isBreak c = false := by simpa using hlead
    obtain ⟨fuel, rfl⟩ := Nat.exists_eq_succ_of_ne_zero (Nat.ne_zero_of_lt hfuel)
    have hwidth :=
      @leadOf_lines [] (c :: (cs ++ more)) (by simp) (by simp) (by simpa using hbreak) after
    rw [List.nil_append] at hwidth
    refine ⟨takeLead?_unknown (h c (by simp)) hbreak hspace fuel, ?_⟩
    rw [List.cons_append, hwidth]
    rfl

theorem read?_block {cs after : List Char} (h : ∀ c ∈ cs, isPrintable c = true) (hne : cs ≠ [])
    (hafter : BeginsToken after) :
    ∃ lines, block cs ++ lineEnding (block cs) ++ after = '|' :: lines ∧
      read? true 1 lines = some (String.ofList cs, after) := by
  obtain ⟨body, breaks, hfull, hbody, hbreaks, hsome, hfinish⟩ := exists_finish hne
  have hprintable : ∀ c ∈ cs ++ lineEnding cs, isPrintable c = true :=
    List.forall_mem_append.mpr ⟨h, isPrintable_lineEnding cs⟩
  have hincrement : increment? cs = some 2 ∨ increment? cs = none := by
    rw [increment?]
    split
    · exact .inl rfl
    · exact .inr rfl
  have hknown : (increment? cs).map (1 - 1 + ·) = increment? cs := by
    rcases hincrement with heq | heq <;> rw [heq] <;> rfl
  refine ⟨(increment? cs).elim [] (fun _ => ['2']) ++ chompMark (chompOf cs) ++
    '\n' :: (indentLines true (cs ++ lineEnding cs) ++ after), ?_, ?_⟩
  · rw [lineEnding_block hne, block, blockHeader_eq, ← indentLines_append_lineEnding]
    simp
  · have hlong : (cs ++ lineEnding cs).length <
        (indentLines true (cs ++ lineEnding cs) ++ after).length + 1 := by
      have := length_le_indentLines true (cs ++ lineEnding cs)
      simp only [List.length_append] at this ⊢
      omega
    obtain ⟨hlead, hindent⟩ := takeLead?_increment hne hprintable hafter hlong
    have hlines := @readLines?_leadOf (chompOf cs) body breaks after hbody hbreaks (fun _ => hsome)
      (hfull ▸ hprintable) hafter _ (hfull ▸ hlong) [] false
    rw [← hfull, hfinish] at hlines
    simp only [read?, readHeader?_written _ hincrement, hknown, hlead, Nat.max_self, hindent,
      hlines, Option.bind_eq_bind, Option.bind_some]
    rfl

end Block

end TableQuery.Yaml
