import ClusterTransition.Proofs.CommandLine.Disk
import ClusterTransition.Rehearsal.WorkingDirectory

/-! # A directory for rehearsals is a disk

A path is walked piece by piece, and only through directories.  Writing makes the directories that
are missing on the way and puts the file where the walk then ends, which is never a directory.  So a
walk that could be taken before can still be taken (`WorkingDirectory.walk_keeps`), and the new one
ends at the file (`WorkingDirectory.made_of_makeDirectories`).

The path of a file and the path of its signature lead through the same directories to two names.
That makes a directory for rehearsals a sound disk (`WorkingDirectory.disk_sound`).
-/

namespace ClusterTransition
namespace WorkingDirectory

variable {d d' : WorkingDirectory} {place : List String}

/-! ## Places -/

theorem entry?_put (d : WorkingDirectory) {place : List String} (hplace : place ≠ [])
    (entry : DirectoryEntry) (q : List String) :
    entry? (d.put place entry) q = if q = place then some entry else d.entry? q := by
  cases q with
  | nil => simp [Ne.symm hplace, entry?]
  | cons name rest =>
    simp only [put, entry?, List.find?_append, List.find?_filter]
    split
    · rename_i heq
      subst heq
      have hnone : d.entries.find? (fun _ => false) = none := List.find?_eq_none.mpr (by simp)
      simp [hnone]
    · rename_i hne
      simp only [List.find?_cons, Ne.symm hne, decide_false, List.find?_nil, Option.or_none]
      congr 2
      funext entry
      by_cases heq : entry.1 = name :: rest
      · simp [heq, hne]
      · simp [heq]

/-- Something new changes nothing that was there. -/
theorem entry?_put_of_none {entry : DirectoryEntry} (hplace : d.entry? place = none)
    {q : List String} {old : DirectoryEntry} (hq : d.entry? q = some old) :
    entry? (d.put place entry) q = some old := by
  have hne : place ≠ [] := by
    rintro rfl
    cases hplace
  rw [entry?_put d hne, if_neg, hq]
  rintro rfl
  rw [hplace] at hq
  cases hq

/-- The names of a place lead through directories. -/
def Inside (d : WorkingDirectory) (place : List String) : Prop :=
  ∀ q, q <+: place → q ≠ place → d.entry? q = some .directory

theorem Inside.nil (d : WorkingDirectory) : d.Inside [] :=
  fun _ hq hne => absurd (List.prefix_nil.mp hq) hne

theorem Inside.mono (h : d.Inside place)
    (hkeeps : ∀ q, d.entry? q = some .directory → d'.entry? q = some .directory) :
    d'.Inside place :=
  fun q hq hne => hkeeps q (h q hq hne)

theorem dropLast_ne_self (hplace : place ≠ []) : place.dropLast ≠ place := by
  intro heq
  have hlength := congrArg List.length heq
  have hpos := List.length_pos_iff.mpr hplace
  rw [List.length_dropLast] at hlength
  omega

theorem Inside.dropLast (h : d.Inside place) (hplace : place ≠ []) : d.Inside place.dropLast := by
  intro q hq _
  refine h q (hq.trans (List.dropLast_prefix place)) ?_
  rintro rfl
  exact dropLast_ne_self hplace (hq.eq_of_length_le (by simp)).symm

/-- One name further. -/
theorem Inside.snoc (h : d.Inside place) (hplace : d.entry? place = some .directory)
    (name : String) : d.Inside (place ++ [name]) := by
  intro q hq hne
  have hq := (List.prefix_concat_iff.mp hq).resolve_left hne
  by_cases heq : q = place
  · rw [heq, hplace]
  · exact h q hq heq

/-! ## Pieces of a path -/

/-- Where a piece of a path leads from a place. -/
def next? (place : List String) (piece : String) : Option (List String) :=
  if piece = "" || piece = "." then some place
  else if piece = ".." then if place = [] then none else some place.dropLast
  else some (place ++ [piece])

/-- The names that do not stand for a file. -/
abbrev NamesFile (name : String) : Prop := name ∉ ["", ".", ".."]

theorem next?_of_namesFile {name : String} (h : NamesFile name) (place : List String) :
    next? place name = some (place ++ [name]) := by
  simp only [NamesFile, List.mem_cons, List.not_mem_nil, or_false, not_or] at h
  simp [next?, h]

/-- A piece leads on, one name further, or to a directory that is there. -/
theorem Inside.next {piece : String} {out : List String} (h : d.Inside place)
    (hplace : d.entry? place = some .directory) (hnext : next? place piece = some out) :
    d.Inside out ∧ (NamesFile piece ∧ out = place ++ [piece] ∨ d.entry? out = some .directory) := by
  unfold next? at hnext
  split at hnext
  · obtain rfl := Option.some.inj hnext
    exact ⟨h, .inr hplace⟩
  · rename_i hgoes
    split at hnext
    · split at hnext
      · cases hnext
      · rename_i hbelow
        obtain rfl := Option.some.inj hnext
        exact ⟨h.dropLast hbelow,
          .inr (h _ (List.dropLast_prefix place) (dropLast_ne_self hbelow))⟩
    · rename_i hdown
      obtain rfl := Option.some.inj hnext
      exact ⟨h.snoc hplace piece, .inl ⟨by simpa [NamesFile, hdown] using hgoes, rfl⟩⟩

/-- One piece of a walk. -/
theorem walk_cons_iff {piece : String} {rest out : List String} :
    d.walk place (piece :: rest) = some out ↔ d.entry? place = some .directory ∧
      ∃ p, next? place piece = some p ∧ d.walk p rest = some out := by
  simp only [walk, next?]
  split
  · rename_i hnot
    simp [hnot]
  · rename_i hthere
    simp only [Decidable.not_not] at hthere
    simp only [hthere, true_and]
    split
    · simp
    · split
      · split <;> simp
      · simp

/-- The directory with a directory at a place, unless there is a file. -/
def enter? (d : WorkingDirectory) (place : List String) : Option WorkingDirectory :=
  match d.entry? place with
  | none => some (d.put place .directory)
  | some .directory => some d
  | some (.file _) => none

theorem enter?_of_directory (h : d.entry? place = some .directory) : d.enter? place = some d := by
  simp only [enter?, h]

/-- Entering a place makes it a directory and changes nothing that was there. -/
theorem entry?_enter (h : d.enter? place = some d') :
    d'.entry? place = some .directory ∧
      ∀ q entry, d.entry? q = some entry → d'.entry? q = some entry := by
  unfold enter? at h
  split at h
  · rename_i hnone
    obtain rfl := Option.some.inj h
    refine ⟨?_, fun q entry hq => entry?_put_of_none hnone hq⟩
    rw [entry?_put d, if_pos rfl]
    rintro rfl
    cases hnone
  · rename_i hthere
    obtain rfl := Option.some.inj h
    exact ⟨hthere, fun _ _ hq => hq⟩
  · cases h

/-- One piece of the way on which directories are made. -/
theorem makeDirectories_cons_iff (hplace : d.Inside place)
    (hdirectory : d.entry? place = some .directory) {piece : String} {rest : List String}
    {out : List String × WorkingDirectory} :
    d.makeDirectories place (piece :: rest) = some out ↔ ∃ p d₁, next? place piece = some p ∧
      d.enter? p = some d₁ ∧ d₁.makeDirectories p rest = some out := by
  simp only [makeDirectories, next?]
  split
  · simp [enter?_of_directory hdirectory]
  · split
    · split
      · simp
      · rename_i hbelow
        have hup := hplace _ (List.dropLast_prefix place) (dropLast_ne_self hbelow)
        simp [enter?_of_directory hup]
    · simp only [Option.some.injEq, enter?]
      split <;> simp_all

/-! ## Walks -/

theorem inside_of_walk {pieces out : List String} (hplace : d.Inside place)
    (h : d.walk place pieces = some out) : d.Inside out := by
  induction pieces generalizing place with
  | nil =>
    obtain rfl := Option.some.inj h
    exact hplace
  | cons piece rest ih =>
    obtain ⟨hdirectory, p, hnext, hrest⟩ := walk_cons_iff.mp h
    exact ih (hplace.next hdirectory hnext).1 hrest

/-- **A walk can be taken again** while the directories are there. -/
theorem walk_keeps (hkeeps : ∀ q, d.entry? q = some .directory → d'.entry? q = some .directory)
    {pieces out : List String} (h : d.walk place pieces = some out) :
    d'.walk place pieces = some out := by
  induction pieces generalizing place with
  | nil => exact h
  | cons piece rest ih =>
    obtain ⟨hdirectory, p, hnext, hrest⟩ := walk_cons_iff.mp h
    exact walk_cons_iff.mpr ⟨hkeeps _ hdirectory, p, hnext, ih hrest⟩

theorem walk_append_iff {front rest out : List String} :
    d.walk place (front ++ rest) = some out ↔
      ∃ p, d.walk place front = some p ∧ d.walk p rest = some out := by
  induction front generalizing place with
  | nil => simp [walk]
  | cons piece front ih =>
    simp only [List.cons_append, walk_cons_iff, ih]
    constructor
    · rintro ⟨hdirectory, p, hnext, q, hfront, hrest⟩
      exact ⟨q, ⟨hdirectory, p, hnext, hfront⟩, hrest⟩
    · rintro ⟨q, ⟨hdirectory, p, hnext, hfront⟩, hrest⟩
      exact ⟨hdirectory, p, hnext, q, hfront, hrest⟩

/-- A walk that ends at a directory begins at one. -/
theorem directory_of_walk {pieces out : List String} (h : d.walk place pieces = some out)
    (hout : d.entry? out = some .directory) : d.entry? place = some .directory := by
  cases pieces with
  | nil =>
    obtain rfl := Option.some.inj h
    exact hout
  | cons piece rest => exact (walk_cons_iff.mp h).1

/-- **Directories that are there are not made again.** -/
theorem makeDirectories_of_walk {pieces out : List String} (hplace : d.Inside place)
    (h : d.walk place pieces = some out) (hout : d.entry? out = some .directory) :
    d.makeDirectories place pieces = some (out, d) := by
  induction pieces generalizing place with
  | nil =>
    obtain rfl := Option.some.inj h
    rfl
  | cons piece rest ih =>
    obtain ⟨hdirectory, p, hnext, hrest⟩ := walk_cons_iff.mp h
    have henter := enter?_of_directory (directory_of_walk hrest hout)
    exact (makeDirectories_cons_iff hplace hdirectory).mpr
      ⟨p, d, hnext, henter, ih (hplace.next hdirectory hnext).1 hrest⟩

/-- What making directories comes to: what was there is there, and the pieces now lead to a
directory. -/
structure Made (d : WorkingDirectory) (place pieces out : List String) (d' : WorkingDirectory) :
    Prop where
  keeps : ∀ q entry, d.entry? q = some entry → d'.entry? q = some entry
  directory : d'.entry? out = some .directory
  walk : d'.walk place pieces = some out

/-- **After directories were made the pieces can be walked.** -/
theorem made_of_makeDirectories {pieces out : List String} (hplace : d.Inside place)
    (hdirectory : d.entry? place = some .directory)
    (h : d.makeDirectories place pieces = some (out, d')) : d.Made place pieces out d' := by
  induction pieces generalizing d place with
  | nil =>
    obtain ⟨rfl, rfl⟩ := Prod.mk.inj (Option.some.inj h)
    exact ⟨fun _ _ hq => hq, hdirectory, rfl⟩
  | cons piece rest ih =>
    obtain ⟨p, d₁, hnext, henter, hmake⟩ := (makeDirectories_cons_iff hplace hdirectory).mp h
    obtain ⟨hthere, hkeeps⟩ := entry?_enter henter
    have hrest := ih ((hplace.next hdirectory hnext).1.mono fun q => hkeeps q _) hthere hmake
    exact ⟨fun q entry hq => hrest.keeps q entry (hkeeps q entry hq), hrest.directory,
      walk_cons_iff.mpr ⟨hrest.keeps _ _ (hkeeps _ _ hdirectory), p, hnext, hrest.walk⟩⟩

/-! ## Files -/

/-- **What is read at a path**: a file to which the last piece leads from a directory. -/
theorem files_eq_text_iff {path content : String} :
    d.files path = .text content ↔ ∃ front name place, pieces? path = some (front ++ [name]) ∧
      NamesFile name ∧ d.walk [] front = some place ∧ d.entry? place = some .directory ∧
      d.entry? (place ++ [name]) = some (.file content) := by
  have hfound : d.files path = .text content ↔ ∃ pieces place, pieces? path = some pieces ∧
      d.walk [] pieces = some place ∧ d.entry? place = some (.file content) := by
    simp only [files]
    constructor
    · intro h
      split at h
      · cases h
      · cases h
      · rename_i text hentry
        obtain rfl : text = content := by simpa using h
        obtain ⟨place, hwalk, hplace⟩ := Option.bind_eq_some_iff.mp hentry
        obtain ⟨pieces, hpieces, hwalk⟩ := Option.bind_eq_some_iff.mp hwalk
        exact ⟨pieces, place, hpieces, hwalk, hplace⟩
    · rintro ⟨pieces, place, hpieces, hwalk, hplace⟩
      simp [hpieces, hwalk, hplace]
  rw [hfound]
  constructor
  · rintro ⟨pieces, place, hpieces, hwalk, hplace⟩
    rcases List.eq_nil_or_concat pieces with rfl | ⟨front, name, rfl⟩
    · obtain rfl := Option.some.inj hwalk
      cases hplace
    · rw [List.concat_eq_append] at hpieces hwalk
      obtain ⟨p, hfront, hlast⟩ := walk_append_iff.mp hwalk
      obtain ⟨hdirectory, q, hnext, hend⟩ := walk_cons_iff.mp hlast
      obtain rfl := Option.some.inj hend
      have hleads := ((inside_of_walk (.nil d) hfront).next hdirectory hnext).2
      rcases hleads with ⟨hname, rfl⟩ | hdir
      · exact ⟨front, name, p, hpieces, hname, hfront, hdirectory, hplace⟩
      · rw [hdir] at hplace
        cases hplace
  · rintro ⟨front, name, place, hpieces, hname, hfront, hdirectory, hfile⟩
    refine ⟨_, _, hpieces, walk_append_iff.mpr ⟨place, hfront, ?_⟩, hfile⟩
    exact walk_cons_iff.mpr ⟨hdirectory, _, next?_of_namesFile hname place, rfl⟩

/-- **What a write does**: it makes the directory of the file and puts the file there, where no
directory may be. -/
theorem write_eq_some_iff {path content : String} :
    d.write path content = some d' ↔ ∃ front name place d₁, pieces? path = some (front ++ [name]) ∧
      NamesFile name ∧ d.makeDirectories [] front = some (place, d₁) ∧
      d₁.entry? (place ++ [name]) ≠ some .directory ∧
      d' = d₁.put (place ++ [name]) (.file content) := by
  simp only [write, Option.bind_eq_bind, Option.bind_eq_some_iff]
  constructor
  · rintro ⟨pieces, hpieces, name, hlast, hwrite⟩
    obtain ⟨front, rfl⟩ := List.getLast?_eq_some_iff.mp hlast
    split at hwrite
    · cases hwrite
    · rename_i hname
      obtain ⟨⟨place, d₁⟩, hmake, hwrite⟩ := Option.bind_eq_some_iff.mp hwrite
      rw [List.dropLast_concat] at hmake
      dsimp only at hwrite
      split at hwrite
      · cases hwrite
      · rename_i hfree
        exact ⟨front, name, place, d₁, hpieces, hname, hmake, hfree,
          (Option.some.inj hwrite).symm⟩
  · rintro ⟨front, name, place, d₁, hpieces, hname, hmake, hfree, rfl⟩
    refine ⟨_, hpieces, name, List.getLast?_concat, ?_⟩
    simp only [hname, if_false, List.dropLast_concat, hmake, Option.bind_some, hfree]

/-- A file that is put where no directory is leaves all directories. -/
theorem keeps_put (content : String) (hplace : place ≠ [])
    (hfree : d.entry? place ≠ some .directory) (q : List String)
    (hq : d.entry? q = some .directory) :
    entry? (d.put place (.file content)) q = some .directory := by
  rw [entry?_put d hplace, if_neg, hq]
  rintro rfl
  exact hfree hq

/-- **What was written is read.** -/
theorem files_of_write {path content : String} (h : d.write path content = some d') :
    d'.files path = .text content := by
  obtain ⟨front, name, place, d₁, hpieces, hname, hmake, hfree, rfl⟩ := write_eq_some_iff.mp h
  have hmade := made_of_makeDirectories (.nil d) rfl hmake
  have hkeeps := keeps_put content (by simp) hfree
  refine files_eq_text_iff.mpr ⟨front, name, place, hpieces, hname,
    walk_keeps hkeeps hmade.walk, hkeeps _ hmade.directory, ?_⟩
  rw [entry?_put d₁ (by simp), if_pos rfl]

/-- **A write leaves the other files of its directory.** -/
theorem files_keeps {path path' content text : String} {front : List String} {name name' : String}
    (hpath : pieces? path = some (front ++ [name]))
    (hpath' : pieces? path' = some (front ++ [name'])) (hne : name ≠ name')
    (h : d.write path content = some d') (htext : d.files path' = .text text) :
    d'.files path' = .text text := by
  obtain ⟨front₁, name₁, place, hpieces, hname, hwalk, hdirectory, hfile⟩ :=
    files_eq_text_iff.mp htext
  obtain ⟨front₂, name₂, place₂, d₁, hpieces₂, -, hmake, hfree, rfl⟩ := write_eq_some_iff.mp h
  obtain ⟨rfl, hnames⟩ := List.append_inj' (Option.some.inj (hpath'.symm.trans hpieces)) rfl
  obtain ⟨rfl, hnames₂⟩ := List.append_inj' (Option.some.inj (hpath.symm.trans hpieces₂)) rfl
  obtain rfl := List.singleton_inj.mp hnames
  obtain rfl := List.singleton_inj.mp hnames₂
  -- the directory is there, so none is made
  have hthere := makeDirectories_of_walk (.nil d) hwalk hdirectory
  obtain ⟨rfl, rfl⟩ := Prod.mk.inj (Option.some.inj (hthere.symm.trans hmake))
  have hkeeps := keeps_put content (by simp) hfree
  refine files_eq_text_iff.mpr ⟨front, name', place, hpieces, hname, walk_keeps hkeeps hwalk,
    hkeeps _ hdirectory, ?_⟩
  rw [entry?_put d (by simp), if_neg, hfile]
  intro hsame
  exact hne (List.singleton_inj.mp (List.append_cancel_left hsame)).symm

/-! ## Signatures -/

theorem pieces?_eq_some_iff {path : String} {pieces : List String} :
    pieces? path = some pieces ↔ Path.pieces path = pieces ∧ pieces.head? ≠ some "" := by
  simp only [pieces?]
  split
  · rename_i habsolute
    simp only [reduceCtorEq, false_iff, not_and]
    rintro rfl hhead
    exact hhead habsolute
  · rename_i hrelative
    simp only [Option.some.injEq]
    constructor
    · rintro rfl
      exact ⟨rfl, hrelative⟩
    · exact fun h => h.1

/-- The path of a signature differs in the last name. -/
theorem pieces?_signaturePath {path : String} {front : List String} {name : String}
    (h : pieces? path = some (front ++ [name])) :
    pieces? (Files.signaturePath path) = some (front ++ [Files.signaturePath name]) := by
  obtain ⟨hpieces, hhead⟩ := pieces?_eq_some_iff.mp h
  refine pieces?_eq_some_iff.mpr ⟨?_, ?_⟩
  · obtain ⟨fronts, lasts, hsplit, rfl, hlast⟩ := List.map_eq_append_iff.mp hpieces
    obtain ⟨last, rfl, rfl⟩ := List.map_eq_singleton_iff.mp hlast
    have hsuffix : '/' ∉ ".sig".toList := by decide
    rw [Path.pieces, Files.signaturePath, String.toList_append,
      splitAll_append_of_notMem hsuffix hsplit]
    simp [Files.signaturePath, String.ofList_append]
  · cases front with
    | nil =>
      intro hempty
      have hlength := congrArg String.length (Option.some.inj hempty)
      simp [Files.signaturePath] at hlength
    | cons => exact hhead

/-- **A directory for rehearsals is a sound disk.** -/
theorem disk_sound : disk.Sound where
  reads_back h := files_of_write h
  keeps_file {d d' path content text} h htext := by
    obtain ⟨front, name, -, hpieces, -⟩ := files_eq_text_iff.mp htext
    exact files_keeps (pieces?_signaturePath hpieces) hpieces (Files.signaturePath_ne name) h htext
  keeps_signature {d d' path content text} h htext := by
    obtain ⟨front, name, -, -, hpieces, -⟩ := write_eq_some_iff.mp h
    exact files_keeps hpieces (pieces?_signaturePath hpieces) (Files.signaturePath_ne name).symm h
      htext

end WorkingDirectory
end ClusterTransition
