import Mathlib.Data.List.Infix
import McpSshTool.Library.TextLines

/-!
# Lexical paths

POSIX paths as texts, read segment by segment without looking at a file system: `/` separates, an
empty segment and `.` stay in place, `..` goes up and stays at the root.

* `resolve` — the location a path names, for a process in a given directory;
* `text` — the one canonical text of a location, with the fact that "equals, or starts with the text
  and a separator" is "lies at or under" (`text_prefix_iff`);
* `normalize` — `posix.normalize`, which on an absolute path yields the canonical text of its
  location, with a final separator if the path had one (`normalize_of_isAbsolute`).
-/

namespace Library
namespace LexicalPath

/-- What stands between two separators. -/
abbrev Segment := List Char

/-- The segments of a path. -/
def segments (p : List Char) : List Segment := p.splitOn '/'

def isAbsolute (p : List Char) : Bool := p.head? = some '/'

/-- One segment, read from the directory `dir`. -/
def push (dir : List Segment) (s : Segment) : List Segment :=
  if s = [] ∨ s = ['.'] then dir
  else if s = ['.', '.'] then dir.dropLast
  else dir ++ [s]

/-- The segments of a path, read one after another from `dir`. -/
def walk (dir : List Segment) (p : List Char) : List Segment := (segments p).foldl push dir

/-- The location a path names for a process in the directory `cwd`. -/
def resolve (cwd : List Segment) (p : List Char) : List Segment :=
  if isAbsolute p then walk [] p else walk cwd p

/-- The segments that name an entry of a directory. -/
structure IsName (s : Segment) : Prop where
  ne_nil : s ≠ []
  ne_dot : s ≠ ['.']
  ne_dotdot : s ≠ ['.', '.']
  slash_notMem : '/' ∉ s

/-- A location is a list of names. -/
def IsLocation (dir : List Segment) : Prop := ∀ s ∈ dir, IsName s

/-! ### Splitting -/

theorem slash_notMem_of_mem_segments {p : List Char} {s : Segment} (h : s ∈ segments p) :
    '/' ∉ s :=
  TextLines.notMem_of_mem_splitOn h

theorem notMem_of_mem_segments {c : Char} {p : List Char} (h : c ∉ p) {s : Segment}
    (hs : s ∈ segments p) : c ∉ s :=
  TextLines.notMem_part h hs

theorem notMem_of_mem_foldl_push {c : Char} {ss : List Segment} (hss : ∀ s ∈ ss, c ∉ s)
    {dir : List Segment} (hdir : ∀ s ∈ dir, c ∉ s) {s : Segment} (hs : s ∈ ss.foldl push dir) :
    c ∉ s := by
  induction ss generalizing dir with
  | nil => exact hdir s hs
  | cons t ss ih =>
    refine ih (fun u hu => hss u (List.mem_cons_of_mem t hu)) ?_ hs
    unfold push
    split
    · exact hdir
    · split
      · exact fun u hu => hdir u (List.dropLast_subset dir hu)
      · intro u hu
        rcases List.mem_append.mp hu with hu | hu
        · exact hdir u hu
        · rw [List.mem_singleton.mp hu]
          exact hss t List.mem_cons_self

theorem notMem_of_mem_walk {c : Char} {p : List Char} (h : c ∉ p) {dir : List Segment}
    (hdir : ∀ s ∈ dir, c ∉ s) {s : Segment} (hs : s ∈ walk dir p) : c ∉ s :=
  notMem_of_mem_foldl_push (fun _ hm => notMem_of_mem_segments h hm) hdir hs

theorem segments_append (p q : List Char) :
    segments (p ++ '/' :: q) = segments p ++ segments q :=
  List.splitOn_append_cons_self p q

/-! ### Locations -/

theorem isLocation_push {dir : List Segment} (hdir : IsLocation dir) {s : Segment}
    (hs : '/' ∉ s) : IsLocation (push dir s) := by
  unfold push
  split
  · exact hdir
  · next h₁ =>
    split
    · exact fun t ht => hdir t (List.dropLast_subset dir ht)
    · next h₂ =>
      intro t ht
      rcases List.mem_append.mp ht with ht | ht
      · exact hdir t ht
      · rw [List.mem_singleton.mp ht]
        exact ⟨fun h => h₁ (.inl h), fun h => h₁ (.inr h), h₂, hs⟩

theorem isLocation_foldl_push {ss : List Segment} (hss : ∀ s ∈ ss, '/' ∉ s) {dir : List Segment}
    (hdir : IsLocation dir) : IsLocation (ss.foldl push dir) := by
  induction ss generalizing dir with
  | nil => exact hdir
  | cons s ss ih =>
    rw [List.foldl_cons]
    exact ih (fun t ht => hss t (List.mem_cons_of_mem s ht))
      (isLocation_push hdir (hss s List.mem_cons_self))

theorem isLocation_walk {dir : List Segment} (hdir : IsLocation dir) (p : List Char) :
    IsLocation (walk dir p) :=
  isLocation_foldl_push (fun _ hs => slash_notMem_of_mem_segments hs) hdir

theorem isLocation_nil : IsLocation [] := fun _ h => absurd h List.not_mem_nil

theorem isLocation_resolve {cwd : List Segment} (hcwd : IsLocation cwd) (p : List Char) :
    IsLocation (resolve cwd p) := by
  unfold resolve
  split
  · exact isLocation_walk isLocation_nil p
  · exact isLocation_walk hcwd p

theorem IsLocation.of_isPrefix {d e : List Segment} (he : IsLocation e) (h : d <+: e) :
    IsLocation d :=
  fun s hs => he s (h.subset hs)

theorem foldl_push_of_isLocation {ss : List Segment} (hss : IsLocation ss) (dir : List Segment) :
    ss.foldl push dir = dir ++ ss := by
  induction ss generalizing dir with
  | nil => rw [List.foldl_nil, List.append_nil]
  | cons s ss ih =>
    have hs := hss s List.mem_cons_self
    have hpush : push dir s = dir ++ [s] := by
      simp [push, hs.ne_nil, hs.ne_dot, hs.ne_dotdot]
    rw [List.foldl_cons, hpush, ih fun t ht => hss t (List.mem_cons_of_mem s ht), List.append_assoc,
      List.singleton_append]

/-! ### The text of a location -/

/-- Every name with the separator before it. -/
def render (dir : List Segment) : List Char := dir.flatMap fun s => '/' :: s

/-- The canonical text of a location. -/
def text (dir : List Segment) : List Char := if dir = [] then ['/'] else render dir

theorem render_cons (s : Segment) (dir : List Segment) :
    render (s :: dir) = '/' :: (s ++ render dir) := by
  simp [render]

theorem render_append (d e : List Segment) : render (d ++ e) = render d ++ render e :=
  List.flatMap_append

theorem segments_append_render {dir : List Segment} (hdir : IsLocation dir) {s : Segment}
    (hs : '/' ∉ s) : segments (s ++ render dir) = s :: dir := by
  induction dir generalizing s with
  | nil =>
    rw [show render [] = [] from rfl, List.append_nil]
    exact List.splitOn_eq_singleton hs
  | cons t dir ih =>
    have ht : '/' ∉ t := (hdir t List.mem_cons_self).slash_notMem
    rw [render_cons, segments, List.splitOn_append_cons_self_of_not_mem hs]
    exact congrArg (s :: ·) (ih (fun u hu => hdir u (List.mem_cons_of_mem t hu)) ht)

theorem segments_render {dir : List Segment} (hdir : IsLocation dir) :
    segments (render dir) = [] :: dir :=
  segments_append_render hdir (s := []) List.not_mem_nil

theorem isAbsolute_text (dir : List Segment) : isAbsolute (text dir) = true := by
  unfold text
  split
  · rfl
  · next h =>
    obtain ⟨s, ss, rfl⟩ := List.exists_cons_of_ne_nil h
    rw [render_cons]
    rfl

theorem resolve_text {dir : List Segment} (hdir : IsLocation dir) (cwd : List Segment) :
    resolve cwd (text dir) = dir := by
  rw [resolve, if_pos (isAbsolute_text dir)]
  unfold text
  split
  · next h =>
    subst h
    rfl
  · rw [walk, segments_render hdir, List.foldl_cons]
    exact foldl_push_of_isLocation hdir []

/-- A name can be made longer. -/
theorem exists_location_append {dir : List Segment} (hdir : IsLocation dir) {s : Segment}
    (hslash : '/' ∉ s) (hlength : 2 < s.length) : ∃ d, IsLocation d ∧ text d = text dir ++ s := by
  have hname : ∀ t : Segment, '/' ∉ t → IsName (t ++ s) := by
    intro t ht
    refine ⟨?_, ?_, ?_, by simp [ht, hslash]⟩
    all_goals
      intro h
      have hlen := congrArg List.length h
      simp only [List.length_append, List.length_cons, List.length_nil] at hlen
      omega
  cases hlast : dir.getLast? with
  | none =>
    -- the root
    rw [List.getLast?_eq_none_iff.mp hlast]
    refine ⟨[s], fun t ht => List.mem_singleton.mp ht ▸ hname [] List.not_mem_nil, ?_⟩
    simp [text, render]
  | some t =>
    obtain ⟨init, rfl⟩ := List.getLast?_eq_some_iff.mp hlast
    have ht := (hdir t (by simp)).slash_notMem
    refine ⟨init ++ [t ++ s], fun u hu => ?_, ?_⟩
    · obtain hu | hu := List.mem_append.mp hu
      · exact hdir u (List.mem_append_left _ hu)
      · rw [List.mem_singleton.mp hu]
        exact hname t ht
    · simp [text, render]

theorem text_injective {d e : List Segment} (hd : IsLocation d) (he : IsLocation e)
    (h : text d = text e) : d = e := by
  rw [← resolve_text hd [], h, resolve_text he []]

/-- **Prefixes of texts are prefixes of locations**, once the separator is compared too. -/
theorem text_prefix_iff {d e : List Segment} (hd : IsLocation d) (he : IsLocation e)
    (hne : d ≠ []) : (text e = text d ∨ text d ++ ['/'] <+: text e) ↔ d <+: e := by
  have htd : text d = render d := if_neg hne
  constructor
  · rintro (h | h)
    · rw [text_injective he hd h]
    · obtain ⟨r, hr⟩ := h
      rw [htd, List.append_assoc, List.singleton_append] at hr
      by_cases hee : e = []
      · -- the root's text has one character, the other at least two
        subst hee
        obtain ⟨s, ss, rfl⟩ := List.exists_cons_of_ne_nil hne
        rw [render_cons, show text [] = ['/'] from rfl] at hr
        simp at hr
      · have hseg : segments (render e) = segments (render d) ++ segments r := by
          rw [← segments_append, hr, text, if_neg hee]
        rw [segments_render he, segments_render hd, List.cons_append] at hseg
        exact ⟨segments r, (List.cons.inj hseg).2.symm⟩
  · rintro ⟨t, rfl⟩
    have hee : d ++ t ≠ [] := fun h => hne (List.append_eq_nil_iff.mp h).1
    rw [htd, text, if_neg hee, render_append]
    cases t with
    | nil => exact .inl (List.append_nil _)
    | cons s t =>
      refine .inr ⟨s ++ render t, ?_⟩
      rw [render_cons, List.append_assoc, List.singleton_append]

theorem walk_slash_cons (dir : List Segment) (p : List Char) :
    walk dir ('/' :: p) = walk dir p := by
  have hsegs : segments ('/' :: p) = [] :: segments p := segments_append [] p
  rw [walk, hsegs, List.foldl_cons]
  rfl

theorem walk_append_slash (dir : List Segment) (p q : List Char) :
    walk dir (p ++ '/' :: q) = walk (walk dir p) q := by
  rw [walk, segments_append, List.foldl_append]
  rfl

theorem walk_append_render {names : List Segment} (hnames : IsLocation names) (dir : List Segment)
    (p : List Char) : walk dir (p ++ render names) = walk dir p ++ names := by
  induction names generalizing p with
  | nil => simp [render]
  | cons s names ih =>
    have hs := hnames s List.mem_cons_self
    have hwalk : walk dir (p ++ '/' :: s) = walk dir p ++ [s] := by
      rw [walk_append_slash, walk, segments, List.splitOn_eq_singleton hs.slash_notMem]
      exact foldl_push_of_isLocation (fun t ht => by rw [List.mem_singleton.mp ht]; exact hs) _
    rw [render_cons, show p ++ '/' :: (s ++ render names) = (p ++ '/' :: s) ++ render names by simp,
      ih (fun t ht => hnames t (List.mem_cons_of_mem s ht)), hwalk, List.append_assoc,
      List.singleton_append]

theorem text_eq_root_iff {d : List Segment} (hd : IsLocation d) : text d = ['/'] ↔ d = [] := by
  refine ⟨fun h => text_injective hd isLocation_nil h, ?_⟩
  rintro rfl
  rfl

/-! ### Normalisation -/

/-- One segment of `normalizeString`. -/
def pushNormal (allowAboveRoot : Bool) (acc : List Segment) (s : Segment) : List Segment :=
  if s = [] ∨ s = ['.'] then acc
  else if s = ['.', '.'] then
    if acc ≠ [] ∧ acc.getLast? ≠ some ['.', '.'] then acc.dropLast
    else if allowAboveRoot then acc ++ [['.', '.']] else acc
  else acc ++ [s]

/-- `normalizeString` of Node's path module, before its segments are joined. -/
def normalizeSegments (allowAboveRoot : Bool) (p : List Char) : List Segment :=
  (segments p).foldl (pushNormal allowAboveRoot) []

def normalize (p : List Char) : List Char :=
  let trailingSeparator := p.getLast? = some '/'
  let body := ['/'].intercalate (normalizeSegments (!isAbsolute p) p)
  if p = [] then ['.']
  else if body = [] then
    if isAbsolute p then ['/'] else if trailingSeparator then ['.', '/'] else ['.']
  else
    let body := if trailingSeparator then body ++ ['/'] else body
    if isAbsolute p then '/' :: body else body

/-- Under a root that `..` cannot leave, normalisation reads segments as resolution does. -/
theorem pushNormal_false {acc : List Segment} (hacc : IsLocation acc) (s : Segment) :
    pushNormal false acc s = push acc s := by
  unfold pushNormal push
  split
  · rfl
  · split
    · split
      · rfl
      · next h =>
        -- the last name is not `..`, so there is none
        have hnil : acc = [] := by
          by_contra hne
          refine h ⟨hne, fun hlast => ?_⟩
          exact (hacc _ (List.mem_of_getLast? hlast)).ne_dotdot rfl
        subst hnil
        rfl
    · rfl

theorem normalizeSegments_false (p : List Char) : normalizeSegments false p = walk [] p := by
  have key : ∀ (ss : List Segment), (∀ s ∈ ss, '/' ∉ s) → ∀ dir, IsLocation dir →
      ss.foldl (pushNormal false) dir = ss.foldl push dir := by
    intro ss
    induction ss with
    | nil => exact fun _ _ _ => rfl
    | cons s ss ih =>
      intro hss dir hdir
      rw [List.foldl_cons, List.foldl_cons, pushNormal_false hdir]
      exact ih (fun t ht => hss t (List.mem_cons_of_mem s ht)) _
        (isLocation_push hdir (hss s List.mem_cons_self))
  exact key _ (fun _ hs => slash_notMem_of_mem_segments hs) [] isLocation_nil

theorem cons_intercalate {dir : List Segment} (h : dir ≠ []) :
    '/' :: ['/'].intercalate dir = render dir := by
  induction dir with
  | nil => exact absurd rfl h
  | cons s dir ih =>
    rw [render_cons]
    cases dir with
    | nil => simp [render]
    | cons t dir =>
      rw [List.intercalate_cons_cons, List.append_assoc, List.singleton_append,
        ih (List.cons_ne_nil t dir)]

theorem intercalate_eq_nil_iff {dir : List Segment} (hdir : IsLocation dir) :
    ['/'].intercalate dir = [] ↔ dir = [] := by
  constructor
  · intro h
    by_contra hne
    obtain ⟨s, ss, rfl⟩ := List.exists_cons_of_ne_nil hne
    have hrender := cons_intercalate hne
    rw [h, render_cons] at hrender
    have := (List.append_eq_nil_iff.mp (List.cons.inj hrender).2.symm).1
    exact (hdir s List.mem_cons_self).ne_nil this
  · rintro rfl
    rfl

/-- **Normalisation of an absolute path** yields the text of its location, with a final separator
where the path has one and does not lead to the root. -/
theorem normalize_of_isAbsolute {p : List Char} (h : isAbsolute p = true) :
    normalize p =
      text (walk [] p) ++
        if p.getLast? = some '/' ∧ walk [] p ≠ [] then ['/'] else [] := by
  have hp : p ≠ [] := by
    rintro rfl
    exact absurd h (by decide)
  have hloc := isLocation_walk isLocation_nil p
  unfold normalize
  simp only [h, Bool.not_true, normalizeSegments_false, if_neg hp, if_true,
    intercalate_eq_nil_iff hloc]
  by_cases hnil : walk [] p = []
  · simp [hnil, text]
  · rw [if_neg hnil, text, if_neg hnil, ← cons_intercalate hnil]
    by_cases hlast : p.getLast? = some '/' <;> simp [hlast, hnil]

theorem pushNormal_head {allow : Bool} {acc : List Segment} (hacc : ∀ s ∈ acc, s ≠ [] ∧ '/' ∉ s)
    {s : Segment} (hs : '/' ∉ s) : ∀ t ∈ pushNormal allow acc s, t ≠ [] ∧ '/' ∉ t := by
  intro t ht
  unfold pushNormal at ht
  split at ht
  · exact hacc t ht
  · next hns =>
    split at ht
    · split at ht
      · exact hacc t (List.dropLast_subset acc ht)
      · split at ht
        · rcases List.mem_append.mp ht with ht | ht
          · exact hacc t ht
          · rw [List.mem_singleton.mp ht]
            decide
        · exact hacc t ht
    · rcases List.mem_append.mp ht with ht | ht
      · exact hacc t ht
      · rw [List.mem_singleton.mp ht]
        exact ⟨fun h => hns (.inl h), hs⟩

theorem normalize_ne_nil (p : List Char) : normalize p ≠ [] := by
  unfold normalize
  simp only
  split
  · exact List.cons_ne_nil _ _
  · split
    · split
      · exact List.cons_ne_nil _ _
      · split <;> exact List.cons_ne_nil _ _
    · next hbody =>
      split
      · exact List.cons_ne_nil _ _
      · split
        · exact fun h => hbody (List.append_eq_nil_iff.mp h).1
        · exact hbody

/-- A relative path stays relative. -/
theorem isAbsolute_normalize_of_relative {p : List Char} (h : isAbsolute p = false) :
    isAbsolute (normalize p) = false := by
  have hsegs : ∀ (ss acc : List Segment), (∀ s ∈ ss, '/' ∉ s) → (∀ s ∈ acc, s ≠ [] ∧ '/' ∉ s) →
      ∀ s ∈ ss.foldl (pushNormal true) acc, s ≠ [] ∧ '/' ∉ s := by
    intro ss
    induction ss with
    | nil => exact fun acc _ hacc => hacc
    | cons s ss ih =>
      intro acc hss hacc
      rw [List.foldl_cons]
      exact ih _ (fun t ht => hss t (List.mem_cons_of_mem s ht))
        (pushNormal_head hacc (hss s List.mem_cons_self))
  have hns : ∀ s ∈ normalizeSegments true p, s ≠ [] ∧ '/' ∉ s :=
    hsegs _ _ (fun _ hs => slash_notMem_of_mem_segments hs) (by simp)
  unfold normalize
  simp only [h, Bool.not_false, Bool.false_eq_true, if_false]
  split
  · rfl
  · split
    · split <;> rfl
    · next hbody =>
      -- the text starts with the first character of a segment
      cases hsegsEq : normalizeSegments true p with
      | nil => exact absurd (by rw [hsegsEq]; rfl) hbody
      | cons s ss =>
        obtain ⟨hne, hslash⟩ := hns s (by rw [hsegsEq]; exact List.mem_cons_self)
        obtain ⟨c, cs, rfl⟩ := List.exists_cons_of_ne_nil hne
        have hc : c ≠ '/' := fun hc => hslash (hc ▸ List.mem_cons_self)
        cases ss <;> split <;> simp [isAbsolute, hc]

end LexicalPath
end Library
