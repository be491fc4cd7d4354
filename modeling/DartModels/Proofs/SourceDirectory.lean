import DartModels.CommandLine.Command
import DartModels.Proofs.DistinctNames
import DartModels.Proofs.Ways
import Mathlib

/-!
# The source directory of a command

A source directory given to the command replaces the one of the options file after the package root
was made absolute from the directory that the file names.  So the package root is the one of the
same file with the given directory written into it only if the root is rooted, or climbs from both
directories to the same one.

    a document with the directory set = its settings with the directory set         (ofJson_cwdSet)
    normalize (join a p) = normalize (join b p) ↔ p is rooted or a and b are the same above
                                                                             (normalize_join_eq_iff)
-/

namespace DartModels

/-! ## Relative paths from two directories -/

namespace Path

/-- How many directories a relative path climbs before it goes down. -/
def climbs (p : String) : Nat :=
  ((reduce false (named p.toList)).takeWhile (· == dotDot)).length

/-- The names that a relative path goes down through after it climbed. -/
def descent (p : String) : List Part := (reduce false (named p.toList)).dropWhile (· == dotDot)

/-- Two rooted paths are the same above what a relative path climbs. -/
def SameAbove (p a b : String) : Prop :=
  rootSlashes a.toList = rootSlashes b.toList ∧
    (named a.toList).rdrop (climbs p) = (named b.toList).rdrop (climbs p)

/-- What relative components do to a stack of plain ones, told by what they do to the empty stack:
they take as many away as they climb. -/
def Over (start stack relative : List Part) : Prop :=
  ∃ top ups, relative = top ++ List.replicate ups dotDot ∧ (∀ q ∈ top, Plain q) ∧
    stack = top ++ start.drop ups

theorem over_push {start stack relative : List Part} (hstart : ∀ q ∈ start, Plain q)
    (h : Over start stack relative) {q : Part} (hq : '/' ∉ q) :
    Over start (push true stack q) (push false relative q) := by
  obtain ⟨top, ups, rfl, htop, rfl⟩ := h
  by_cases hnamed : isNamed q = true
  · by_cases hdots : q = dotDot
    · rw [hdots]
      cases top with
      | cons t top =>
        obtain ⟨ht, htop⟩ := List.forall_mem_cons.mp htop
        exact ⟨top, ups, push_dotDot false _ ht, htop, push_dotDot true _ ht⟩
      | nil =>
        refine ⟨[], ups + 1, ?_, nofun, ?_⟩
        · cases ups <;> rfl
        · rw [List.nil_append, List.nil_append, ← List.tail_drop]
          cases hdrop : start.drop ups with
          | nil => rfl
          | cons s rest =>
            have hs : Plain s := hstart s (List.mem_of_mem_drop (hdrop ▸ List.mem_cons_self))
            exact push_dotDot true rest hs
    · have hplain : Plain q := ⟨⟨hnamed, hq⟩, hdots⟩
      exact ⟨q :: top, ups, push_plain false _ hplain, List.forall_mem_cons.mpr ⟨hplain, htop⟩,
        push_plain true _ hplain⟩
  · have hfalse : isNamed q = false := by simpa using hnamed
    rw [push_unnamed true _ hfalse, push_unnamed false _ hfalse]
    exact ⟨top, ups, rfl, htop, rfl⟩

theorem over_foldl_push {start stack relative : List Part} (hstart : ∀ q ∈ start, Plain q)
    (h : Over start stack relative) {parts : List Part} (hparts : ∀ q ∈ parts, '/' ∉ q) :
    Over start (parts.foldl (push true) stack) (parts.foldl (push false) relative) := by
  induction parts generalizing stack relative with
  | nil => exact h
  | cons q parts ih =>
    obtain ⟨hq, hparts⟩ := List.forall_mem_cons.mp hparts
    exact ih (over_push hstart h hq) hparts

theorem noSlash_named (p : List Char) : ∀ q ∈ named p, '/' ∉ q :=
  fun _ hq => notMem_of_mem_splitSlash (List.mem_filter.mp hq).1

/-- What a path climbs and goes down, read off its components. -/
theorem climbs_descent {p : String} {ups : Nat} {names : List Part}
    (h : reduce false (named p.toList) = List.replicate ups dotDot ++ names)
    (hnames : ∀ q ∈ names, Plain q) : climbs p = ups ∧ descent p = names := by
  have hups : ∀ q ∈ List.replicate ups dotDot, (q == dotDot) = true :=
    fun q hq => by simpa using List.eq_of_mem_replicate hq
  unfold climbs descent
  rw [h, List.takeWhile_append_of_pos hups, List.dropWhile_append_of_pos hups]
  cases names with
  | nil => simp
  | cons q rest =>
    have hq : ¬(q == dotDot) = true := by simpa using (hnames q List.mem_cons_self).ne_dotDot
    rw [List.takeWhile_cons, if_neg hq, List.dropWhile_cons, if_neg hq]
    simp

theorem plain_descent (p : String) : ∀ q ∈ descent p, Plain q := by
  obtain ⟨ups, names, hreduce, hplain, -⟩ := exists_reduce_eq false (noSlash_named p.toList)
  rw [(climbs_descent hreduce hplain).2]
  exact hplain

/-- A relative path below plain components takes as many away as it climbs. -/
theorem reduce_append_named {start : List Part} (hs : ∀ q ∈ start, Plain q) (p : String) :
    reduce true (start ++ named p.toList) = start.rdrop (climbs p) ++ descent p := by
  have hreverse : ∀ q ∈ start.reverse, Plain q := fun q hq => hs q (List.mem_reverse.mp hq)
  have hempty : Over start.reverse start.reverse [] := ⟨[], 0, rfl, nofun, rfl⟩
  obtain ⟨top, ups, hrelative, htop, hstack⟩ :=
    over_foldl_push hreverse hempty (noSlash_named p.toList)
  have hreduce : reduce false (named p.toList) = List.replicate ups dotDot ++ top.reverse := by
    unfold reduce
    rw [hrelative, List.reverse_append, List.reverse_replicate]
  obtain ⟨hclimbs, hdescent⟩ :=
    climbs_descent hreduce fun q hq => htop q (List.mem_reverse.mp hq)
  rw [hclimbs, hdescent]
  unfold reduce List.rdrop
  rw [List.foldl_append, foldl_push_plain true hs, List.append_nil, hstack, List.reverse_append,
    List.drop_reverse, List.reverse_reverse]

theorem normalize_join_rooted {root : Nat} (hr : root = 1 ∨ root = 2) {start : List Part}
    (hs : ∀ q ∈ start, Plain q) {p : String} (hp : ¬isRooted p.toList = true) :
    normalize (join (String.ofList (rooted root start)) p) =
      String.ofList (rooted root (start.rdrop (climbs p) ++ descent p)) := by
  have hhead : p.toList.head? ≠ some '/' := fun h => hp (by simp [isRooted, h])
  obtain ⟨hnamed, hroot⟩ := named_joinChars_rooted hr hs hhead
  unfold normalize join
  rw [String.toList_ofList, String.toList_ofList, normalizeChars_rooted (by omega), hroot, hnamed,
    reduce_append_named hs]

/-- A path leads to the same place from two rooted directories exactly if it is rooted, or the
directories are the same above what it climbs. -/
theorem normalize_join_eq_iff {a b : String} (ha : isRooted a.toList = true)
    (hb : isRooted b.toList = true) (p : String) :
    normalize (join (normalize a) p) = normalize (join (normalize b) p) ↔
      isRooted p.toList = true ∨ SameAbove p (normalize a) (normalize b) := by
  have ha' := rootSlashes_of_isRooted ha
  have hb' := rootSlashes_of_isRooted hb
  have hale := rootSlashes_le a.toList
  have hble := rootSlashes_le b.toList
  have hpa := plain_reduce_named a.toList
  have hpb := plain_reduce_named b.toList
  by_cases hp : isRooted p.toList = true
  · rw [join_of_isRooted _ hp, join_of_isRooted _ hp]
    exact ⟨fun _ => Or.inl hp, fun _ => rfl⟩
  · have hproper : ∀ {start : List Part}, (∀ q ∈ start, Plain q) →
        ∀ q ∈ start.rdrop (climbs p) ++ descent p, Proper q := by
      intro start hs q hq
      rcases List.mem_append.mp hq with hq | hq
      · exact (hs q (List.mem_of_mem_take hq)).toProper
      · exact (plain_descent p q hq).toProper
    unfold SameAbove
    rw [normalize_of_isRooted ha, normalize_of_isRooted hb,
      normalize_join_rooted (by omega) hpa hp, normalize_join_rooted (by omega) hpb hp,
      String.toList_ofList, String.toList_ofList,
      rootSlashes_rooted hale fun q hq => (hpa q hq).toProper,
      rootSlashes_rooted hble fun q hq => (hpb q hq).toProper,
      named_rooted _ fun q hq => (hpa q hq).toProper,
      named_rooted _ fun q hq => (hpb q hq).toProper, String.ofList_inj,
      rooted_inj hale hble (hproper hpa) (hproper hpb), List.append_cancel_right_eq]
    exact ⟨Or.inr, fun h => h.resolve_left hp⟩

end Path

/-! ## Absolute directories -/

namespace Path

theorem canonical_of_isRooted (workdir : String) {p : String} (h : isRooted p.toList = true) :
    canonical workdir p = String.ofList (rooted 1 (reduce true (named p.toList))) := by
  have hne := rootSlashes_of_isRooted h
  have hle := rootSlashes_le p.toList
  have hproper : ∀ q ∈ reduce true (named p.toList), Proper q :=
    fun q hq => (plain_reduce_named p.toList q hq).toProper
  unfold canonical absolute
  rw [join_of_isRooted workdir h, normalize_of_isRooted h, String.toList_ofList]
  dsimp only
  rw [rootSlashes_rooted hle hproper]
  obtain hone | htwo : rootSlashes p.toList = 1 ∨ rootSlashes p.toList = 2 := by omega
  · rw [hone]
    rfl
  · rw [htwo]
    rfl

/-- The canonical form of a rooted path is its normal form, unless it has two root slashes. -/
theorem canonical_eq_normalize_iff (workdir : String) {p : String}
    (h : isRooted p.toList = true) :
    canonical workdir p = normalize p ↔ rootSlashes p.toList ≠ 2 := by
  have hne := rootSlashes_of_isRooted h
  have hle := rootSlashes_le p.toList
  have hproper : ∀ q ∈ reduce true (named p.toList), Proper q :=
    fun q hq => (plain_reduce_named p.toList q hq).toProper
  rw [canonical_of_isRooted workdir h, normalize_of_isRooted h, String.ofList_inj,
    rooted_inj (by omega) hle hproper hproper]
  constructor
  · rintro ⟨hone, -⟩
    omega
  · intro htwo
    exact ⟨by omega, rfl⟩

end Path

namespace FileSystem

variable {fs : FileSystem}

theorem exists?_of_readFile {path : String} {bytes : List UInt8}
    (h : fs.readFile path = .ok bytes) : fs.exists? path = .ok true := by
  unfold readFile at h
  unfold exists?
  split at h
  · cases h
  · next hnul =>
    rw [if_neg hnul]
    split at h
    · next hstat => rw [hstat]
    · cases h
    · cases h

/-- A walk takes each `..` away, as the normal form of its components does. -/
theorem walk_eq_reduce {parts : List Path.Part} (hparts : ∀ q ∈ parts, '/' ∉ q)
    {current loc : Location} (hcurrent : ∀ q ∈ current, Path.Plain q)
    (hw : fs.walk current parts = .ok loc) :
    loc = (parts.foldl (Path.push true) current.reverse).reverse := by
  induction parts generalizing current with
  | nil =>
    cases hw
    exact (List.reverse_reverse _).symm
  | cons q parts ih =>
    obtain ⟨hq, hparts⟩ := List.forall_mem_cons.mp hparts
    rw [List.foldl_cons]
    rw [walk] at hw
    by_cases hnamed : Path.isNamed q = true
    · rw [if_neg (by simp [hnamed])] at hw
      by_cases hdots : q = Path.dotDot
      · have hreverse : ∀ s ∈ current.reverse, Path.Plain s :=
          fun s hs => hcurrent s (List.mem_reverse.mp hs)
        have hclimb : Path.push true current.reverse Path.dotDot = current.dropLast.reverse := by
          rw [← List.tail_reverse, ← List.drop_one]
          exact Path.foldl_push_climb hreverse 1
        rw [if_pos hdots] at hw
        rw [hdots, hclimb]
        exact ih hparts (fun s hs => hcurrent s (List.dropLast_subset _ hs)) hw
      · have hplain : Path.Plain q := ⟨⟨hnamed, hq⟩, hdots⟩
        have hnext : ∀ s ∈ current ++ [q], Path.Plain s :=
          List.forall_mem_append.mpr ⟨hcurrent, List.forall_mem_singleton.mpr hplain⟩
        rw [if_neg hdots] at hw
        rw [Path.push_plain true _ hplain, ← List.reverse_concat]
        split at hw
        · cases hw
        · split at hw
          · next hend =>
            cases hw
            rw [List.isEmpty_iff.mp hend, List.foldl_nil, List.reverse_reverse]
          · split at hw
            · exact ih hparts hnext hw
            · cases hw
            · cases hw
    · rw [if_pos (by simp [hnamed])] at hw
      rw [Path.push_unnamed true _ (by simpa using hnamed)]
      exact ih hparts hcurrent hw

/-- A rooted path leads to the components of its normal form, if it leads anywhere. -/
theorem locate_eq_reduce {path : String} (h : Path.isRooted path.toList = true) {loc : Location}
    (hl : fs.locate path = .ok loc) : loc = Path.reduce true (Path.named path.toList) := by
  unfold locate at hl
  split at hl
  · cases hl
  · split at hl
    · cases hl
    · rw [Path.reduce_named]
      exact walk_eq_reduce (fun q hq => Path.notMem_of_mem_splitSlash hq)
        (fun _ hq => absurd hq List.not_mem_nil) hl

/-- A directory that stands is no file under its canonical path. -/
theorem stat_canonical_ne_file {path : String} (h : Path.isRooted path.toList = true)
    (hdir : fs.isDirectory path = true) (workdir : String) (content : List UInt8) :
    fs.stat (Path.canonical workdir path) ≠ .ok (.file content) := by
  intro hfile
  unfold isDirectory at hdir
  rw [Bool.and_eq_true] at hdir
  split at hdir
  · next hstat =>
    obtain ⟨loc, hloc, hlookup⟩ := stat_eq_ok hstat
    obtain ⟨loc', hloc', hlookup'⟩ := stat_eq_ok hfile
    rw [Path.canonical_of_isRooted workdir h] at hloc'
    rw [locate_eq_reduce h hloc] at hlookup
    rw [locate_rooted (Or.inl rfl) (Path.plain_reduce_named path.toList) hloc', hlookup] at hlookup'
    cases hlookup'
  · exact absurd hdir.2 Bool.false_ne_true

end FileSystem

/-! ## The source directory of a document -/

/-- A document with the source directory set, whatever it was.  The member stands anywhere in its
section, but for one that replaces all attributes after it. -/
inductive Json.CwdSet (dir : String) : Json → Json → Prop where
  | mk {members settings before after : List (String × Json)}
      (hsection : (member? "parser" members).getD (.obj []) = .obj settings)
      (hsettings : settings.filter (fun m => m.1 ≠ "cwd") = before ++ after)
      (hafter : ∀ m ∈ after, m.1 ≠ "__dict__") :
      CwdSet dir (.obj members) (.obj (setMember "parser"
        (.obj (before ++ ("cwd", .str dir) :: after)) members))

namespace SourceSettings

/-- Settings with the source directory set. -/
def withCwd (s : SourceSettings) (v : Json) : SourceSettings := { s with cwd := v }

/-- The settings after those of an object, one after another. -/
def setAll (s : SourceSettings) (members : List (String × Json)) : Except Error SourceSettings :=
  members.foldlM (fun s m => s.set m.1 m.2) s

theorem setAll_cons (s : SourceSettings) (m : String × Json) (members : List (String × Json)) :
    s.setAll (m :: members) = s.set m.1 m.2 >>= fun t => t.setAll members := List.foldlM_cons

theorem setAll_append (s : SourceSettings) (before after : List (String × Json)) :
    s.setAll (before ++ after) = s.setAll before >>= fun t => t.setAll after := List.foldlM_append

/-- Every other setting is set beside the source directory, unless all attributes are replaced. -/
theorem set_withCwd {name : String} (h : name ≠ "cwd") (hdict : name ≠ "__dict__")
    (s : SourceSettings) (v w : Json) :
    (s.withCwd v).set name w = (s.set name w).map (withCwd · v) := by
  unfold set
  split
  case h_2 => exact absurd rfl h
  case h_6 =>
    cases w with
    | obj members =>
      show (EntityRules.ofMembers members >>= _) = Except.map _ (EntityRules.ofMembers members >>= _)
      cases EntityRules.ofMembers members <;> rfl
    | _ => rfl
  case h_10 => exact absurd rfl hdict
  case h_11 =>
    show (setAttribute owner name w s.attributes >>= _) =
      Except.map _ (setAttribute owner name w s.attributes >>= _)
    cases setAttribute owner name w s.attributes <;> rfl
  all_goals rfl

theorem setAll_withCwd {members : List (String × Json)}
    (h : ∀ m ∈ members, m.1 ≠ "cwd" ∧ m.1 ≠ "__dict__") (s : SourceSettings) (v : Json) :
    (s.withCwd v).setAll members = (s.setAll members).map (withCwd · v) := by
  induction members generalizing s with
  | nil => rfl
  | cons m members ih =>
    obtain ⟨⟨hcwd, hdict⟩, hmembers⟩ := List.forall_mem_cons.mp h
    rw [setAll_cons, setAll_cons, set_withCwd hcwd hdict]
    cases s.set m.1 m.2 with
    | error e => rfl
    | ok t => exact ih hmembers t

/-- Settings that differ in the source directory at most still do so after one more setting. -/
theorem set_congr {name : String} (h : name ≠ "cwd") {s t : SourceSettings} {v : Json}
    (hst : s.withCwd v = t.withCwd v) (w : Json) :
    (s.set name w).map (withCwd · v) = (t.set name w).map (withCwd · v) := by
  by_cases hdict : name = "__dict__"
  · subst hdict
    rfl
  · rw [← set_withCwd h hdict, ← set_withCwd h hdict, hst]

/-- What a section says about the source directory makes no difference to its other settings. -/
theorem setAll_filter {s t : SourceSettings} {v : Json} (h : s.withCwd v = t.withCwd v)
    (members : List (String × Json)) :
    (s.setAll members).map (withCwd · v) =
      (t.setAll (members.filter fun m => m.1 ≠ "cwd")).map (withCwd · v) := by
  induction members generalizing s t with
  | nil => exact congrArg Except.ok h
  | cons m members ih =>
    obtain ⟨name, w⟩ := m
    by_cases hname : name = "cwd"
    · subst hname
      rw [List.filter_cons_of_neg (by simp), setAll_cons]
      exact ih h
    · have hstep := set_congr hname h w
      rw [List.filter_cons_of_pos (by simpa using hname), setAll_cons, setAll_cons]
      dsimp only
      rcases hs : s.set name w with e | s' <;> rcases ht : t.set name w with e' | t' <;>
        rw [hs, ht] at hstep
      · cases hstep
        rfl
      · cases hstep
      · cases hstep
      · exact ih (Except.ok.inj hstep)

end SourceSettings

namespace Settings

/-- Setting the source directory in a document sets it in its settings and nothing else. -/
theorem ofJson_cwdSet {doc doc' : Json} {dir : String} (h : doc.CwdSet dir doc') {s : Settings}
    (hs : ofJson doc = .ok s) :
    ofJson doc' = .ok { s with source := s.source.withCwd (.str dir) } := by
  obtain @⟨members, settings, before, after, hsection, hsettings, hafter⟩ := h
  obtain ⟨source, hsource, hs⟩ := exists_of_bind_eq_ok hs
  obtain ⟨model, hmodel, hs⟩ := exists_of_bind_eq_ok hs
  cases hs
  rw [hsection] at hsource
  have hall : SourceSettings.setAll .default settings = .ok source := hsource
  have hothers : ∀ m ∈ after, m.1 ≠ "cwd" ∧ m.1 ≠ "__dict__" := by
    intro m hm
    have hfilter := List.mem_append_right before hm
    rw [← hsettings, List.mem_filter] at hfilter
    exact ⟨of_decide_eq_true hfilter.2, hafter m hm⟩
  have hset : SourceSettings.setAll .default (before ++ ("cwd", .str dir) :: after) =
      .ok (source.withCwd (.str dir)) :=
    calc SourceSettings.setAll .default (before ++ ("cwd", .str dir) :: after)
      _ = SourceSettings.setAll .default before >>= fun t =>
            (t.withCwd (.str dir)).setAll after := SourceSettings.setAll_append _ _ _
      _ = (SourceSettings.setAll .default before >>= fun t => t.setAll after).map
            (SourceSettings.withCwd · (.str dir)) := by
          cases SourceSettings.setAll .default before with
          | error e => rfl
          | ok t => exact SourceSettings.setAll_withCwd hothers t (.str dir)
      _ = (SourceSettings.setAll .default settings).map
            (SourceSettings.withCwd · (.str dir)) := by
          rw [← SourceSettings.setAll_append, ← hsettings]
          exact (SourceSettings.setAll_filter rfl settings).symm
      _ = .ok (source.withCwd (.str dir)) := by
          rw [hall]
          rfl
  unfold ofJson
  dsimp only
  rw [Json.member?_setMember, Json.member?_setMember, if_pos rfl, if_neg (by decide), hmodel]
  show (SourceSettings.setAll .default _ >>= _) = _
  rw [hset]
  rfl

/-- Settings with absolute directories. -/
def located (s : Settings) (cwd root out : String) : Settings :=
  { s with
    source := { s.source with cwd := .str cwd, root := .str root }
    model := { s.model with out := .str out } }

theorem located_source_inj {s : Settings} {cwd root cwd' root' out : String} :
    (s.located cwd root out).source = (s.located cwd' root' out).source ↔
      cwd = cwd' ∧ root = root' := by
  constructor
  · intro h
    exact ⟨Json.str.inj (congrArg SourceSettings.cwd h),
      Json.str.inj (congrArg SourceSettings.root h)⟩
  · rintro ⟨rfl, rfl⟩
    rfl

end Settings

/-! ## The settings of a command -/

namespace CommandLine

open Settings

/-- The document in the options file of a request. -/
def RunRequest.document (r : RunRequest) (fs : FileSystem) : Except Error Json :=
  readDocument fs (Path.tidy (r.optionsFile fs))

/-- The directory that the options file of a request stands in. -/
def RunRequest.base (r : RunRequest) (fs : FileSystem) : String :=
  fs.absolute (Path.Tidy.ofString (r.optionsFile fs)).parent.toString

/-- A source directory of the options file of a request as an absolute path. -/
def RunRequest.ownCwd (r : RunRequest) (fs : FileSystem) (cwd : String) : String :=
  Path.normalize (Path.join (r.base fs) cwd)

theorem RunRequest.base_congr (r : RunRequest) {fs fs' : FileSystem}
    (h : fs'.workdir = fs.workdir) : r.base fs' = r.base fs := by
  unfold base optionsFile FileSystem.absolute FileSystem.workdirPath
  rw [h]

theorem RunRequest.isRooted_base (r : RunRequest) (fs : FileSystem) :
    Path.isRooted (r.base fs).toList = true := by
  obtain ⟨root, parts, hr, -, h⟩ :=
    fs.exists_rooted_absolute (Path.Tidy.ofString (r.optionsFile fs)).parent.toString
  unfold base
  rw [h, String.toList_ofList]
  rcases hr with rfl | rfl <;> rfl

/-- The settings of a request whose options file holds a document with paths that are texts: the
package root comes from the source directory of the document, whatever the request gives. -/
theorem settingsOf_eq {fs : FileSystem} {r : RunRequest} {doc : Json} {s : Settings}
    {cwd root out : String} (hdoc : r.document fs = .ok doc) (hs : ofJson doc = .ok s)
    (hcwd : s.source.cwd = .str cwd) (hroot : s.source.root = .str root)
    (hout : s.model.out = .str out) :
    settingsOf fs r = .ok (s.located (r.cwd.getD (r.ownCwd fs cwd))
      (Path.normalize (Path.join (r.ownCwd fs cwd) root))
      (r.out.getD (Path.normalize (Path.join (r.base fs) out)))) := by
  obtain ⟨bytes, hread, -⟩ := exists_of_bind_eq_ok hdoc
  have hload : load fs (r.optionsFile fs) = s.resolvePaths (r.base fs) := by
    unfold load
    show (fs.exists? (Path.tidy (r.optionsFile fs)) >>= _) = _
    rw [FileSystem.exists?_of_readFile hread]
    show (r.document fs >>= fun v => ofJson v >>= fun t => t.resolvePaths (r.base fs)) = _
    rw [hdoc]
    show (ofJson doc >>= fun t => t.resolvePaths (r.base fs)) = _
    rw [hs]
    rfl
  unfold settingsOf
  rw [hload]
  unfold resolvePaths
  rw [hcwd, hroot, hout]
  cases r.cwd <;> cases r.out <;> rfl

/-- The operand that names a standing directory is taken in its canonical form. -/
theorem operandPath_directory {fs : FileSystem} {dir : String}
    (hdir : Path.isRooted dir.toList = true) (hstands : fs.isDirectory dir = true) :
    operandPath fs .cwd dir = .ok (Path.canonical fs.workdirPath dir) := by
  have hnul : FileSystem.hasNul dir = false := by
    unfold FileSystem.isDirectory at hstands
    simpa using (Bool.and_eq_true_iff.mp hstands).1
  have hfile := FileSystem.stat_canonical_ne_file hdir hstands fs.workdirPath
  have hrefusal : refusal? fs .cwd (Path.canonical fs.workdirPath dir) = none := by
    unfold refusal?
    cases hstat : fs.stat (Path.canonical fs.workdirPath dir) with
    | error cause => rfl
    | ok entry =>
      cases entry with
      | directory => rfl
      | file content => exact absurd hstat (hfile content)
  unfold operandPath
  rw [hnul]
  dsimp only
  rw [hrefusal]
  rfl

/-- Giving a directory to the command against writing it into the options file: all settings are the
same but the two directories.  The source directory is the same unless the given path has two root
slashes.  The package root is the same exactly if it is rooted, or the source directory of the
file and the given one are the same above what it climbs. -/
theorem cwd_option_iff {fs fs' : FileSystem} {r : RunRequest} {doc doc' : Json} {s : Settings}
    {dir cwd root out : String} (hdir : Path.isRooted dir.toList = true)
    (hstands : fs.isDirectory dir = true) (hdoc : r.document fs = .ok doc)
    (hworkdir : fs'.workdir = fs.workdir) (hset : doc.CwdSet dir doc')
    (hwritten : r.document fs' = .ok doc') (hs : ofJson doc = .ok s)
    (hcwd : s.source.cwd = .str cwd) (hroot : s.source.root = .str root)
    (hout : s.model.out = .str out) :
    ∃ operand given written,
      operandPath fs .cwd dir = .ok operand ∧
      settingsOf fs { r with cwd := some operand } = .ok given ∧
      settingsOf fs' { r with cwd := none } = .ok written ∧
      given = { written with
        source := { written.source with cwd := given.source.cwd, root := given.source.root } } ∧
      (given.source.cwd = written.source.cwd ↔ Path.rootSlashes dir.toList ≠ 2) ∧
      (given.source.root = written.source.root ↔ Path.isRooted root.toList = true ∨
        Path.SameAbove root (r.ownCwd fs cwd) (Path.normalize dir)) ∧
      (given.source = written.source ↔ Path.rootSlashes dir.toList ≠ 2 ∧
        (Path.isRooted root.toList = true ∨
          Path.SameAbove root (r.ownCwd fs cwd) (Path.normalize dir))) := by
  have hown : ({ r with cwd := none } : RunRequest).ownCwd fs' dir = Path.normalize dir := by
    unfold RunRequest.ownCwd
    rw [Path.join_of_isRooted _ hdir]
  have hbase : ({ r with cwd := none } : RunRequest).base fs' = r.base fs := r.base_congr hworkdir
  have hgiven : settingsOf fs { r with cwd := some (Path.canonical fs.workdirPath dir) } =
      .ok (s.located (Path.canonical fs.workdirPath dir)
        (Path.normalize (Path.join (r.ownCwd fs cwd) root))
        (r.out.getD (Path.normalize (Path.join (r.base fs) out)))) :=
    settingsOf_eq hdoc hs hcwd hroot hout
  have hfile : settingsOf fs' { r with cwd := none } =
      .ok (s.located (Path.normalize dir) (Path.normalize (Path.join (Path.normalize dir) root))
        (r.out.getD (Path.normalize (Path.join (r.base fs) out)))) := by
    have h := settingsOf_eq (r := { r with cwd := none }) hwritten
      (ofJson_cwdSet hset hs) rfl hroot hout
    rw [hown, hbase] at h
    exact h
  have hcwdIff := Path.canonical_eq_normalize_iff fs.workdirPath hdir
  have hrootIff : Path.normalize (Path.join (r.ownCwd fs cwd) root) =
        Path.normalize (Path.join (Path.normalize dir) root) ↔
      Path.isRooted root.toList = true ∨
        Path.SameAbove root (r.ownCwd fs cwd) (Path.normalize dir) :=
    Path.normalize_join_eq_iff (Path.isRooted_join (r.isRooted_base fs) cwd) hdir root
  refine ⟨_, _, _, operandPath_directory hdir hstands, hgiven, hfile, rfl, ?_, ?_, ?_⟩
  · rw [← hcwdIff]
    exact ⟨Json.str.inj, congrArg Json.str⟩
  · rw [← hrootIff]
    exact ⟨Json.str.inj, congrArg Json.str⟩
  · rw [located_source_inj, hcwdIff, hrootIff]

/-- An options file that names a source directory next to it. -/
def nearText : String := "\x7b\"parser\":\x7b\"cwd\":\"src\"\x7d\x7d"

/-- An options file that names a source directory further down. -/
def farText : String := "\x7b\"parser\":\x7b\"cwd\":\"/a/src\"\x7d\x7d"

/-- A tree with an options file and two directories `src`. -/
def twoSources (text : String) : FileSystem where
  entries :=
    [(["darmogen.json".toList], .file (text.toList.map fun c => UInt8.ofNat c.toNat)),
      (["src".toList], .directory), (["a".toList], .directory),
      (["a".toList, "src".toList], .directory)]
  workdir := []

/-- A request without options. -/
def plainRequest : RunRequest := ⟨none, none, none, false⟩

theorem optionsFile_twoSources (text : String) :
    Path.tidy (plainRequest.optionsFile (twoSources text)) = "/darmogen.json" := by
  have hworkdir : (twoSources text).workdirPath = "/" := rfl
  unfold RunRequest.optionsFile
  rw [hworkdir]
  cbv

theorem readFile_twoSources (text : String) :
    (twoSources text).readFile "/darmogen.json" =
      .ok (text.toList.map fun c => UInt8.ofNat c.toNat) := by
  have hnul : FileSystem.hasNul "/darmogen.json" = false := by decide
  have hlocate : (twoSources text).locate "/darmogen.json" = .ok ["darmogen.json".toList] := rfl
  have hstat : (twoSources text).stat "/darmogen.json" =
      .ok (.file (text.toList.map fun c => UInt8.ofNat c.toNat)) := by
    unfold FileSystem.stat
    rw [hlocate]
    rfl
  unfold FileSystem.readFile
  rw [hnul, hstat]
  rfl

theorem document_near :
    plainRequest.document (twoSources nearText) =
      .ok (.obj [("parser", .obj [("cwd", .str "src")])]) := by
  unfold RunRequest.document Settings.readDocument
  rw [optionsFile_twoSources, readFile_twoSources]
  cbv

theorem document_far :
    plainRequest.document (twoSources farText) =
      .ok (.obj [("parser", .obj [("cwd", .str "/a/src")])]) := by
  unfold RunRequest.document Settings.readDocument
  rw [optionsFile_twoSources, readFile_twoSources]
  cbv

/-- The documents of both files are the same but for the source directory. -/
theorem cwdSet_near : Json.CwdSet "/a/src" (.obj [("parser", .obj [("cwd", .str "src")])])
    (.obj [("parser", .obj [("cwd", .str "/a/src")])]) :=
  @Json.CwdSet.mk _ _ _ [] [] rfl rfl nofun

theorem ofJson_cwd (cwd : String) :
    ∃ s : Settings, ofJson (.obj [("parser", .obj [("cwd", .str cwd)])]) = .ok s ∧
      s.source.cwd = .str cwd ∧ s.source.root = .str ".." ∧ s.model.out = .str "./models" :=
  ⟨_, rfl, rfl, rfl, rfl⟩

theorem isDirectory_twoSources : (twoSources nearText).isDirectory "/a/src" = true := by
  have hnul : FileSystem.hasNul "/a/src" = false := by decide
  have hlocate : (twoSources nearText).locate "/a/src" = .ok ["a".toList, "src".toList] := rfl
  unfold FileSystem.isDirectory FileSystem.stat
  rw [hnul, hlocate]
  rfl

/-- The root `..` of `/src` is that of `/a/src` only if both lie in one directory. -/
theorem cwd_option_moved :
    ∃ operand given written,
      operandPath (twoSources nearText) .cwd "/a/src" = .ok operand ∧
      settingsOf (twoSources nearText) { plainRequest with cwd := some operand } = .ok given ∧
      settingsOf (twoSources farText) { plainRequest with cwd := none } = .ok written ∧
      (given.source = written.source ↔ Path.rootSlashes "/a/src".toList ≠ 2 ∧
        (Path.isRooted "..".toList = true ∨ Path.SameAbove ".."
          (plainRequest.ownCwd (twoSources nearText) "src") (Path.normalize "/a/src"))) := by
  obtain ⟨s, hs, hcwd, hroot, hout⟩ := ofJson_cwd "src"
  obtain ⟨operand, given, written, hoperand, hgiven, hwritten, -, -, -, hsource⟩ :=
    @cwd_option_iff (twoSources nearText) (twoSources farText) plainRequest _ _ s "/a/src" "src" ".."
      "./models" (by decide) isDirectory_twoSources document_near rfl cwdSet_near document_far hs hcwd
      hroot hout
  exact ⟨operand, given, written, hoperand, hgiven, hwritten, hsource⟩

/-- The package root is that of the directory that the options file names, though the command was
given another one. -/
theorem cwd_option_ignored :
    (twoSources nearText).isDirectory "/a/src" = true ∧
      (∃ doc doc', plainRequest.document (twoSources nearText) = .ok doc ∧
        doc.CwdSet "/a/src" doc' ∧ plainRequest.document (twoSources farText) = .ok doc') ∧
      operandPath (twoSources nearText) .cwd "/a/src" = .ok "/a/src" ∧
      ∃ given written,
        settingsOf (twoSources nearText) { plainRequest with cwd := some "/a/src" } = .ok given ∧
        settingsOf (twoSources farText) plainRequest = .ok written ∧
        given.source.cwd = written.source.cwd ∧
        given.source.root = .str "/" ∧ written.source.root = .str "/a" := by
  obtain ⟨s, hs, hcwd, hroot, hout⟩ := ofJson_cwd "src"
  obtain ⟨t, ht, hcwd', hroot', hout'⟩ := ofJson_cwd "/a/src"
  have hnear : plainRequest.ownCwd (twoSources nearText) "src" = "/src" := by decide
  have hfar : plainRequest.ownCwd (twoSources farText) "/a/src" = "/a/src" := by decide
  have hgiven := settingsOf_eq (r := { plainRequest with cwd := some "/a/src" }) document_near hs
    hcwd hroot hout
  have hwritten := settingsOf_eq (r := plainRequest) document_far ht hcwd' hroot' hout'
  have hcanonical : Path.canonical (twoSources nearText).workdirPath "/a/src" = "/a/src" := by decide
  have hoperand : operandPath (twoSources nearText) .cwd "/a/src" = .ok "/a/src" := by
    rw [operandPath_directory (by decide) isDirectory_twoSources, hcanonical]
  refine ⟨isDirectory_twoSources, ⟨_, _, document_near, cwdSet_near, document_far⟩, hoperand, _, _, hgiven,
    hwritten, ?_, ?_, ?_⟩
  · exact congrArg Json.str hfar.symm
  · refine congrArg Json.str ?_
    show Path.normalize (Path.join (plainRequest.ownCwd (twoSources nearText) "src") "..") = _
    rw [hnear]
    decide
  · refine congrArg Json.str ?_
    rw [hfar]
    decide

end CommandLine

end DartModels
