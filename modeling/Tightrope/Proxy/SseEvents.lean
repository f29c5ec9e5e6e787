import Mathlib.Algebra.BigOperators.Group.List.Basic
import Mathlib.Data.List.Chain
import Tightrope.Core.Ascii

namespace Tightrope.Proxy

open Bytes Tightrope.Core

def doneText : Bytes := ofString "[DONE]"

def dataField : Bytes := ofString "data:"

def dropCarriageReturn (line : Bytes) : Bytes := if line.getLast? = some 13 then line.dropLast else line

def bodyLines (body : Bytes) : List Bytes := (body.splitOn 10).map dropCarriageReturn

def lineData (line : Bytes) : Bytes := trimAscii (line.drop 5)

def flushEvent (current : Bytes) : List Bytes := if current = [] then [] else [current]

def addData (current data : Bytes) : Bytes := if current = [] then data else current ++ 10 :: data

def parseLines (current : Bytes) : List Bytes → List Bytes
  | [] => flushEvent current
  | line :: lines =>
    if line = [] then flushEvent current ++ parseLines [] lines
    else if startsWith line dataField then
      if lineData line = doneText then flushEvent current
      else if lineData line = [] then parseLines current lines
      else parseLines (addData current (lineData line)) lines
    else parseLines current lines

def parseSseEvents (body : Bytes) : List Bytes := parseLines [] (bodyLines body)

def writeSse (events : List Bytes) : Bytes :=
  events.flatMap fun event => ofString "data: " ++ event ++ ofString "\n\n"

section Lines

theorem not_mem_of_mem_splitOn {sep : UInt8} {text line : Bytes} (h : line ∈ text.splitOn sep) : sep ∉ line := by
  induction text generalizing line with
  | nil =>
    rw [List.splitOn_nil, List.mem_singleton] at h
    rw [h]
    exact List.not_mem_nil
  | cons c text ih =>
    rw [List.splitOn_cons_eq_if_modifyHead] at h
    split_ifs at h with hc
    · obtain rfl | hmem := List.mem_cons.mp h
      · exact List.not_mem_nil
      · exact ih hmem
    · obtain ⟨first, rest, hsplit⟩ := List.exists_cons_of_ne_nil (List.splitOn_ne_nil sep text)
      rw [hsplit, List.modifyHead_cons] at h
      obtain rfl | hmem := List.mem_cons.mp h
      · have hfirst : sep ∉ first := ih (by rw [hsplit]; exact List.mem_cons_self)
        have hne : sep ≠ c := fun heq => hc (by rw [heq]; exact BEq.refl c)
        simp [hne, hfirst]
      · exact ih (by rw [hsplit]; exact List.mem_cons_of_mem _ hmem)

theorem splitOn_append_of_not_mem {sep : UInt8} {start text first : Bytes} {rest : List Bytes} (hstart : sep ∉ start)
    (h : text.splitOn sep = first :: rest) : (start ++ text).splitOn sep = (start ++ first) :: rest := by
  have hparts : ∀ line ∈ (start ++ first) :: rest, sep ∉ line := by
    intro line hline
    obtain rfl | hmem := List.mem_cons.mp hline
    · have hfirst : sep ∉ first := not_mem_of_mem_splitOn (by rw [h]; exact List.mem_cons_self)
      exact fun hmem => (List.mem_append.mp hmem).elim hstart hfirst
    · exact not_mem_of_mem_splitOn (by rw [h]; exact List.mem_cons_of_mem _ hmem)
  have htext : [sep].intercalate ((start ++ first) :: rest) = start ++ text := by
    have hjoined : [sep].intercalate (first :: rest) = text := h ▸ List.intercalate_splitOn sep
    rw [← hjoined]
    cases rest with
    | nil => simp
    | cons second rest => simp [List.intercalate_cons_cons]
  rw [← htext, List.splitOn_intercalate sep hparts (List.cons_ne_nil _ _)]

theorem dropCarriageReturn_of_trimmed {line : Bytes} (h : Trimmed line) : dropCarriageReturn line = line := by
  apply if_neg
  intro hlast
  exact absurd (h.2 13 hlast) (by decide)

end Lines

section Events

def IsEventLine (line : Bytes) : Prop := Trimmed line ∧ line ≠ [] ∧ line ≠ doneText

def IsEvent (event : Bytes) : Prop := ∀ line ∈ event.splitOn 10, IsEventLine line

variable {current data event line : Bytes} {lines events : List Bytes}

theorem not_mem_lineData {line : Bytes} (h : 10 ∉ line) : 10 ∉ lineData line := by
  intro hmem
  have hdrop := (List.dropWhile_suffix isSpace).subset ((List.rdropWhile_prefix isSpace _).subset hmem)
  exact h (List.mem_of_mem_drop hdrop)

theorem isEvent_lineData (hline : 10 ∉ line) (hdone : lineData line ≠ doneText) (hne : lineData line ≠ []) :
    IsEvent (lineData line) := by
  rw [IsEvent, List.splitOn_eq_singleton (not_mem_lineData hline)]
  simpa using ⟨trimmed_trimAscii _, hne, hdone⟩

theorem isEvent_addData (hcurrent : current = [] ∨ IsEvent current) (hdata : IsEvent data) :
    IsEvent (addData current data) := by
  unfold addData
  split_ifs with hnil
  · exact hdata
  · have hevent := hcurrent.resolve_left hnil
    intro line hline
    rw [List.splitOn_append_cons_self] at hline
    exact (List.mem_append.mp hline).elim (hevent line) (hdata line)

theorem isEvent_of_mem_flushEvent (hcurrent : current = [] ∨ IsEvent current) (h : event ∈ flushEvent current) :
    IsEvent event := by
  unfold flushEvent at h
  split_ifs at h with hnil
  · cases h
  · rw [List.mem_singleton.mp h]
    exact hcurrent.resolve_left hnil

theorem isEvent_of_mem_parseLines (hlines : ∀ line ∈ lines, 10 ∉ line) (hcurrent : current = [] ∨ IsEvent current)
    (h : event ∈ parseLines current lines) : IsEvent event := by
  induction lines generalizing current with
  | nil => exact isEvent_of_mem_flushEvent hcurrent h
  | cons line lines ih =>
    obtain ⟨hline, hrest⟩ := List.forall_mem_cons.mp hlines
    rw [parseLines] at h
    split_ifs at h with hblank hfield hdone hempty
    · obtain hmem | hmem := List.mem_append.mp h
      · exact isEvent_of_mem_flushEvent hcurrent hmem
      · exact ih hrest (.inl rfl) hmem
    · exact isEvent_of_mem_flushEvent hcurrent h
    · exact ih hrest hcurrent h
    · exact ih hrest (.inr (isEvent_addData hcurrent (isEvent_lineData hline hdone hempty))) h
    · exact ih hrest hcurrent h

theorem mem_of_mem_dropCarriageReturn {c : UInt8} (h : c ∈ dropCarriageReturn line) : c ∈ line := by
  unfold dropCarriageReturn at h
  split_ifs at h
  · exact List.dropLast_subset _ h
  · exact h

theorem not_mem_of_mem_bodyLines {body : Bytes} (h : line ∈ bodyLines body) : 10 ∉ line := by
  intro hmem
  obtain ⟨raw, hraw, rfl⟩ := List.mem_map.mp h
  exact not_mem_of_mem_splitOn hraw (mem_of_mem_dropCarriageReturn hmem)

theorem isEvent_of_mem_parseSseEvents {body : Bytes} (h : event ∈ parseSseEvents body) : IsEvent event :=
  isEvent_of_mem_parseLines (fun _ => not_mem_of_mem_bodyLines) (.inl rfl) h

end Events

section Reframed

variable {current event first : Bytes} {rest lines events : List Bytes}

theorem bodyLines_writeSse_cons (hevent : IsEvent event) (h : event.splitOn 10 = first :: rest) :
    bodyLines (writeSse (event :: events)) =
      (ofString "data: " ++ first) :: rest ++ [] :: bodyLines (writeSse events) := by
  have htext : writeSse (event :: events) = (ofString "data: " ++ event) ++ 10 :: ([] ++ 10 :: writeSse events) := by
    simp [writeSse, show ofString "\n\n" = [10, 10] by decide]
  have hfirst : IsEventLine first := hevent first (by rw [h]; exact List.mem_cons_self)
  have hlast : (ofString "data: " ++ first).getLast? = first.getLast? := by
    rw [List.getLast?_append_of_ne_nil _ hfirst.2.1]
  have hkept : dropCarriageReturn (ofString "data: " ++ first) = ofString "data: " ++ first := by
    apply if_neg
    rw [hlast]
    intro hreturn
    exact absurd (hfirst.1.2 13 hreturn) (by decide)
  have hrest : rest.map dropCarriageReturn = rest := by
    have hid : ∀ line ∈ rest, dropCarriageReturn line = id line := fun line hline =>
      dropCarriageReturn_of_trimmed (hevent line (by rw [h]; exact List.mem_cons_of_mem _ hline)).1
    rw [List.map_congr_left hid, List.map_id]
  rw [bodyLines, htext, List.splitOn_append_cons_self, List.splitOn_append_cons_self, List.splitOn_nil,
    splitOn_append_of_not_mem (by decide) h]
  simp only [List.map_append, List.map_cons, List.map_nil, hkept, hrest, bodyLines]
  rfl

theorem parseLines_first (hfirst : IsEventLine first) :
    parseLines [] ((ofString "data: " ++ first) :: lines) = parseLines first lines := by
  have hdata : lineData (ofString "data: " ++ first) = first := by
    rw [lineData, show (ofString "data: " ++ first).drop 5 = 32 :: first by rfl, trimAscii,
      List.dropWhile_cons_of_pos (by decide)]
    exact trimAscii_eq_self.mpr hfirst.1
  have hfield : startsWith (ofString "data: " ++ first) dataField = true := by
    rw [startsWith, List.isPrefixOf_iff_prefix]
    exact ⟨32 :: first, rfl⟩
  have hne : ofString "data: " ++ first ≠ [] := List.cons_ne_nil 100 _
  rw [parseLines, if_neg hne, if_pos hfield, hdata, if_neg hfirst.2.2, if_neg hfirst.2.1, addData,
    if_pos rfl]

theorem length_lineData_lt {line : Bytes} (h : startsWith line dataField = true) :
    (lineData line).length < line.length := by
  have hdata := ((List.rdropWhile_prefix isSpace _).length_le).trans
    (List.dropWhile_suffix (l := line.drop 5) isSpace).length_le
  have hline : 5 ≤ line.length := by
    rw [startsWith, List.isPrefixOf_iff_prefix] at h
    exact h.length_le
  rw [List.length_drop] at hdata
  rw [lineData, trimAscii]
  omega

theorem parseLines_block (hcurrent : current ≠ []) (hrest : ∀ line ∈ rest, line ≠ []) :
    ∃ text tail, parseLines current (rest ++ [] :: lines) = text :: tail ∧
      text.length + rest.length ≤ current.length + (rest.map (·.length + 1)).sum := by
  induction rest generalizing current with
  | nil => exact ⟨current, parseLines [] lines, by simp [parseLines, flushEvent, hcurrent], by simp⟩
  | cons line rest ih =>
    obtain ⟨hline, hrest⟩ := List.forall_mem_cons.mp hrest
    rw [List.cons_append, parseLines, if_neg hline]
    simp only [List.length_cons, List.map_cons, List.sum_cons]
    split_ifs with hfield hdone hempty
    · have hsum : rest.length ≤ (rest.map (·.length + 1)).sum := by
        simp
      exact ⟨current, [], by simp [flushEvent, hcurrent], by omega⟩
    · obtain ⟨text, tail, heq, hlength⟩ := ih hcurrent hrest
      exact ⟨text, tail, heq, by omega⟩
    · have hadded : addData current (lineData line) = current ++ 10 :: lineData line := if_neg hcurrent
      have hne : addData current (lineData line) ≠ [] := by simp [hadded]
      obtain ⟨text, tail, heq, hlength⟩ := ih hne hrest
      have hshorter := length_lineData_lt hfield
      rw [hadded, List.length_append, List.length_cons] at hlength
      exact ⟨text, tail, heq, by omega⟩
    · obtain ⟨text, tail, heq, hlength⟩ := ih hcurrent hrest
      exact ⟨text, tail, heq, by omega⟩

theorem length_of_splitOn (h : event.splitOn 10 = first :: rest) :
    event.length = first.length + (rest.map (·.length + 1)).sum := by
  have hlength : ∀ (lines : List Bytes) (line : Bytes), (List.intercalate [10] (line :: lines)).length =
      line.length + (lines.map (·.length + 1)).sum := by
    intro lines
    induction lines with
    | nil => intro line; simp
    | cons second lines ih =>
      intro line
      rw [List.intercalate_cons_cons, List.length_append, List.length_append, ih]
      simp
      omega
  rw [← hlength, ← h, List.intercalate_splitOn]

theorem parseSseEvents_writeSse_iff (h : ∀ event ∈ events, IsEvent event) :
    parseSseEvents (writeSse events) = events ↔ ∀ event ∈ events, 10 ∉ event := by
  induction events with
  | nil => simp [parseSseEvents, writeSse, bodyLines, parseLines, dropCarriageReturn, flushEvent]
  | cons event events ih =>
    obtain ⟨hevent, hrest⟩ := List.forall_mem_cons.mp h
    obtain ⟨first, rest, hsplit⟩ := List.exists_cons_of_ne_nil (List.splitOn_ne_nil 10 event)
    have hfirst : IsEventLine first := hevent first (by rw [hsplit]; exact List.mem_cons_self)
    rw [parseSseEvents, bodyLines_writeSse_cons hevent hsplit, List.cons_append, parseLines_first hfirst,
      List.forall_mem_cons]
    cases rest with
    | nil =>
      have hsingle : event = first := by
        have hjoined : [10].intercalate [first] = event := hsplit ▸ List.intercalate_splitOn 10
        simpa using hjoined.symm
      have hnewline : 10 ∉ event := hsingle ▸ not_mem_of_mem_splitOn (by rw [hsplit]; exact List.mem_cons_self)
      have hread : parseLines first ([] ++ [] :: bodyLines (writeSse events)) =
          event :: parseSseEvents (writeSse events) := by
        simp [parseLines, flushEvent, hfirst.2.1, hsingle, parseSseEvents]
      rw [hread, List.cons.injEq, ih hrest]
      simp [hnewline]
    | cons second rest =>
      have hnewline : 10 ∈ event := by
        by_contra hmem
        rw [List.splitOn_eq_singleton hmem] at hsplit
        cases hsplit
      have hlines : ∀ line ∈ second :: rest, line ≠ [] :=
        fun line hline => (hevent line (by rw [hsplit]; exact List.mem_cons_of_mem _ hline)).2.1
      obtain ⟨text, tail, heq, hlength⟩ := @parseLines_block first (second :: rest) (bodyLines (writeSse events))
        hfirst.2.1 hlines
      have hshorter : text ≠ event := by
        rintro rfl
        rw [← length_of_splitOn hsplit, List.length_cons] at hlength
        omega
      rw [heq, List.cons.injEq]
      simp [hshorter, hnewline]

end Reframed

section Marks

def isDoneLine (line : Bytes) : Bool := startsWith line dataField && lineData line = doneText

def hasData (line : Bytes) : Bool := startsWith line dataField && lineData line ≠ []

def contentMarks (lines : List Bytes) : List Bool :=
  ((lines.takeWhile fun line => !isDoneLine line).filter fun line => line = [] || hasData line).map hasData

def OneAtATime (marks : List Bool) : Prop := marks.IsChain fun earlier later => earlier = false ∨ later = false

/-- No two data lines with content come without a blank line between them. -/
def SingleLineEvents (body : Bytes) : Prop := OneAtATime (contentMarks (bodyLines body))

theorem oneAtATime_false {marks : List Bool} : OneAtATime (false :: marks) ↔ OneAtATime marks := by
  cases marks with
  | nil => exact iff_of_true (.singleton _) .nil
  | cons mark marks => simp [OneAtATime, List.isChain_cons_cons]

theorem oneAtATime_cons_false {mark : Bool} {marks : List Bool} :
    OneAtATime (mark :: false :: marks) ↔ OneAtATime (false :: marks) := by
  simp [OneAtATime, List.isChain_cons_cons]

variable {current line : Bytes} {lines : List Bytes}

theorem mem_addData (h : 10 ∈ current) (data : Bytes) : 10 ∈ addData current data := by
  unfold addData
  split_ifs with hnil
  · rw [hnil] at h
    cases h
  · exact List.mem_append_left _ h

theorem newline_stays (h : 10 ∈ current) : ∃ event ∈ parseLines current lines, 10 ∈ event := by
  have hflush : flushEvent current = [current] := if_neg (List.ne_nil_of_mem h)
  induction lines generalizing current with
  | nil => exact ⟨current, by simp [parseLines, hflush], h⟩
  | cons line lines ih =>
    rw [parseLines]
    split_ifs
    · exact ⟨current, by simp [hflush], h⟩
    · exact ⟨current, by simp [hflush], h⟩
    · exact ih h hflush
    · exact ih (mem_addData h _) (if_neg (List.ne_nil_of_mem (mem_addData h _)))
    · exact ih h hflush

theorem contentMarks_blank : contentMarks ([] :: lines) = false :: contentMarks lines := rfl

theorem contentMarks_done (hfield : startsWith line dataField = true) (hdone : lineData line = doneText) :
    contentMarks (line :: lines) = [] := by
  simp [contentMarks, isDoneLine, hfield, hdone]

theorem contentMarks_data (hfield : startsWith line dataField = true) (hdone : lineData line ≠ doneText)
    (hdata : lineData line ≠ []) : contentMarks (line :: lines) = true :: contentMarks lines := by
  simp [contentMarks, isDoneLine, hasData, hfield, hdone, hdata]

theorem contentMarks_skip (hblank : line ≠ []) (hdone : isDoneLine line = false) (hdata : hasData line = false) :
    contentMarks (line :: lines) = contentMarks lines := by
  simp [contentMarks, hdone, hblank, hdata]

theorem parseLines_single_iff (hlines : ∀ line ∈ lines, 10 ∉ line) (hcurrent : 10 ∉ current) :
    (∀ event ∈ parseLines current lines, 10 ∉ event) ↔ OneAtATime (decide (current ≠ []) :: contentMarks lines) := by
  induction lines generalizing current with
  | nil =>
    by_cases hnil : current = []
    · simp [parseLines, flushEvent, hnil, OneAtATime, contentMarks]
    · simp [parseLines, flushEvent, hnil, OneAtATime, contentMarks, hcurrent]
  | cons line lines ih =>
    obtain ⟨hline, hrest⟩ := List.forall_mem_cons.mp hlines
    have hflush : ∀ event ∈ flushEvent current, 10 ∉ event := by
      intro event hmem
      unfold flushEvent at hmem
      split_ifs at hmem
      · cases hmem
      · rwa [List.mem_singleton.mp hmem]
    rw [parseLines]
    split_ifs with hblank hfield hdone hempty
    · rw [hblank, contentMarks_blank, List.forall_mem_append, ih hrest List.not_mem_nil, oneAtATime_cons_false]
      exact and_iff_right hflush
    · rw [contentMarks_done hfield hdone]
      exact iff_of_true hflush (.singleton _)
    · rw [contentMarks_skip hblank (by simp [isDoneLine, hdone]) (by simp [hasData, hempty])]
      exact ih hrest hcurrent
    · rw [contentMarks_data hfield hdone hempty]
      have hdata : 10 ∉ lineData line := not_mem_lineData hline
      by_cases hnil : current = []
      · rw [addData, if_pos hnil, ih hrest hdata, decide_eq_true hempty, hnil]
        exact oneAtATime_false.symm
      · have hadded : 10 ∈ addData current (lineData line) := by simp [addData, hnil]
        obtain ⟨event, hmem, hnewline⟩ := @newline_stays _ lines hadded
        apply iff_of_false
        · exact fun h => h event hmem hnewline
        · simp [OneAtATime, List.isChain_cons_cons, hnil]
    · rw [contentMarks_skip hblank (by simp [isDoneLine, hfield]) (by simp [hasData, hfield])]
      exact ih hrest hcurrent

/-- Re-framing gives the same events back exactly when no event spans several lines. -/
theorem sse_relay_transparent_iff (body : Bytes) :
    parseSseEvents (writeSse (parseSseEvents body)) = parseSseEvents body ↔ SingleLineEvents body := by
  rw [parseSseEvents_writeSse_iff fun event => isEvent_of_mem_parseSseEvents, parseSseEvents,
    parseLines_single_iff (fun line => not_mem_of_mem_bodyLines) List.not_mem_nil]
  exact oneAtATime_false

def twoLineBody : Bytes := ofString "data: a\ndata: b\n\n"

theorem second_line_is_dropped :
    parseSseEvents twoLineBody = [ofString "a\nb"] ∧
      parseSseEvents (writeSse (parseSseEvents twoLineBody)) = [ofString "a"] := by
  decide +kernel

end Marks

end Tightrope.Proxy
