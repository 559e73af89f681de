import Unjar.Proofs.Extract.Content
import Unjar.Proofs.Extract.Frame
import Unjar.Proofs.FileSystem.Front
import Unjar.Proofs.Run.Visit
import Unjar.Proofs.Walk.Course

/-!
Where the entries of an archive land, with links on the way to the destination. The destination is made as it is spelled,
and the entries are put below its cleaned form. The two lead to the same directory unless a name that is taken back by
`..` is that of a link.
-/

namespace Unjar

namespace Extract

open FileSystem

section Unpacking

variable {image : Bytes} {archive dest : Path} {l l' jar : Location} {origin fs ready : FileSystem}
  {records done : List Archive.Record} {r : Archive.Record} {names : List Bytes} {w w' : World} {count : Nat}

/-- A directory that was made is there, and to make it for an entry again changes nothing. -/
theorem makeDirectory_made {p : Path} {mode : Option Nat} (sound : w.files.Sound) (ran : makeDirectory p mode w = .ok () w') :
    ∃ made l, w.files.makeDirectories p = (.ok (), made) ∧ made.Leads p l ∧
      makeDirectory p mode { w with files := made } = .ok () w' := by
  obtain ⟨made, done, moded⟩ := makeDirectory_iff.mp ran
  obtain ⟨l, leads⟩ := sound.leads_of_made done
  exact ⟨made, l, done, leads, makeDirectory_iff.mpr ⟨made, sound.makeDirectories_made done, moded⟩⟩

/-- What an entry does first is to make the directories on its way. They are below the cleaned destination, which leads to
a directory then. The entry comes to the same when they are there already. -/
theorem entry_made (sound : w.files.Sound) (confined : Confined dest records) (member : r ∈ records) {index : Nat}
    (ran : entry jar dest index r w = .ok () w') :
    ∃ made l', made.Sound ∧ w.files.AddsDirectories made (fun _ => True) ∧ made.Leads dest.clean l' ∧
      entry jar dest index r { w with files := made } = .ok () w' := by
  obtain ⟨names, image, start, down, valid, accepted, content, begins, unpacks⟩ := unpacks_of_entry confined member ran
  -- the same is read with the directories there, and what follows them is the same
  have grown : ∀ {p : Path} {made}, w.files.makeDirectories p = (.ok (), made) →
      made.Sound ∧ w.files.AddsDirectories made (fun _ => True) ∧ made.contents jar = .ok image := by
    intro p made done
    have evolves := Evolves.makeDirectories sound p
    have adds := sound.makeDirectories_grow p
    rw [done] at evolves adds
    exact ⟨evolves.sound, adds, adds.grows.contents content⟩
  cases unpacks with
  | directory isDirectory ran =>
    obtain ⟨made, m, done, leads, again⟩ := makeDirectory_made sound ran
    obtain ⟨soundMade, adds, content'⟩ := grown done
    obtain ⟨l', leads'⟩ := leads.front soundMade valid
    have unpacks' : Unpacks jar dest r start names { w with files := made } w' := .directory isDirectory again
    exact ⟨made, l', soundMade, adds, leads', unpacks'.entry down valid accepted content' begins index⟩
  | file isFile enclosed wrote content₂ out written =>
    obtain ⟨made, m, done, leads, again⟩ := makeDirectory_made sound enclosed
    obtain ⟨soundMade, adds, content'⟩ := grown done
    obtain ⟨l', leads'⟩ := leads.of_enclosing soundMade valid
    have unpacks' : Unpacks jar dest r start names { w with files := made } _ :=
      .file isFile again wrote content₂ out written
    exact ⟨made, l', soundMade, adds, leads', unpacks'.entry down valid accepted content' begins index⟩

/-- What is below the place that the entries are put into when some of them are unpacked: what they hold, and otherwise what
was there. -/
structure Landing (image : Bytes) (dest : Path) (l : Location) (origin : FileSystem) (done : List Archive.Record)
    (fs : FileSystem) : Prop where
  within : Within dest.clean l origin fs
  ordinary : fs.Ordinary l
  data : ∀ names, names ≠ [] → AllNames names →
    fs.data? (l ++ names) = (lastData? image dest done names).or (origin.data? (l ++ names))

/-- None of the entries is put where the archive is. -/
def Spared (dest : Path) (l jar : Location) (records : List Archive.Record) : Prop :=
  ∀ r ∈ records, ∀ names, names ≠ [] → Fills dest names r → l ++ names ≠ jar

theorem lastData?_eq_none_iff :
    lastData? image dest records names = none ↔ ∀ r ∈ records, ¬ Fills dest names r := by
  rw [lastData?, Option.map_eq_none_iff, List.find?_eq_none]
  simp only [List.mem_reverse, decide_eq_true_eq]

/-- The archive stays as it was. -/
theorem Landing.contents (landing : Landing image dest l origin done fs) (spared : Spared dest l jar done)
    (start : Within dest.clean l origin origin) (ordinary : origin.Ordinary l) (content : origin.contents jar = .ok image) :
    fs.contents jar = .ok image := by
  by_cases inside : Below l jar
  · obtain ⟨names, down, rfl⟩ := inside
    have held := ordinary.data?_of_contents down content
    obtain ⟨mode, there⟩ := data?_eq_some.mp held
    have valid : AllNames names := (start.sound.names _ (by rw [there]; rfl)).1.right
    have unfilled : lastData? image dest done names = none :=
      lastData?_eq_none_iff.mpr fun r member fills => spared r member names down fills rfl
    refine contents_of_data? ?_
    rw [landing.data names down valid, unfilled, Option.none_or, held]
  · rw [landing.within.contents inside, content]

theorem Landing.entriesFrom (landing : Landing image dest l origin done w.files) (start : Within dest.clean l origin origin)
    (ordinary : origin.Ordinary l) (content : origin.contents jar = .ok image) (confined : Confined dest records)
    (spared : Spared dest l jar (done ++ records)) {index : Nat}
    (ran : entriesFrom jar dest index records w = .ok () w') :
    Landing image dest l origin (done ++ records) w'.files := by
  induction records generalizing index done w with
  | nil =>
    cases ran
    rwa [List.append_nil]
  | cons r rest ih =>
    obtain ⟨_, w₁, first, others⟩ := Task.bind_ok ran
    rw [List.append_cons] at spared ⊢
    have before : Spared dest l jar done := fun other member => spared other (by simp [member])
    obtain ⟨within, ordinary₁, data⟩ := entry_data landing.within landing.ordinary
      (landing.contents before start ordinary content) (spared r (by simp)) confined List.mem_cons_self first
    refine ih ⟨within, ordinary₁, fun names down valid => ?_⟩
      (fun other member => confined other (List.mem_cons_of_mem _ member)) spared others
    rw [data names down valid, lastData?_concat, landing.data names down valid]
    split <;> simp

/-- Where an archive with entries is unpacked, its entries land where the cleaned destination leads to in the end. -/
theorem landing_of_extract (sound : w.files.Sound) (guarded : dest.Guarded)
    (opened : openArchive archive w.files = .ok (jar, records)) (content : w.files.contents jar = .ok image)
    (ran : extract archive dest w = .ok count w') (some : records ≠ []) :
    ∃ l', w'.files.Leads dest.clean l' ∧ (w.files.Ordinary l' → Spared dest l' jar records →
      ∃ origin, w.files.AddsDirectories origin (fun _ => True) ∧ Landing image dest l' origin records w'.files) := by
  obtain ⟨ready, made, unpacked, _⟩ := entries_of_extract opened ran
  have confined : Confined dest records := .of_guarded guarded records
  have soundReady := (Evolves.makeDirectories sound dest).sound
  have adds := sound.makeDirectories_grow dest
  rw [made] at soundReady adds
  obtain ⟨r, rest, rfl⟩ := List.exists_cons_of_ne_nil some
  obtain ⟨_, w₁, first, others⟩ := Task.bind_ok unpacked
  obtain ⟨origin, l', soundOrigin, adds', leads, again⟩ :=
    entry_made (w := { w with files := ready }) soundReady confined List.mem_cons_self first
  have unpacked' : entriesFrom jar dest 0 (r :: rest) { w with files := origin } = .ok () w' := by
    rw [entriesFrom, Task.bind_of_ok _ again]
    exact others
  have start : Keeps origin.Evolves w.calls { w with files := origin } := ⟨.refl soundOrigin, rfl⟩
  have kept := (keeps_entriesFrom (fun _ _ p _ => upheld_evolves origin p) jar 0 start).of_ok unpacked'
  refine ⟨l', leads.mono kept.files.keeps, fun ordinary spared => ⟨origin, adds.trans adds', ?_⟩⟩
  have ordinary' : origin.Ordinary l' := (SameData.of_adds (adds.trans adds')).ordinary ordinary
  have within : Within dest.clean l' origin origin := .start soundOrigin (ordinary'.linkFree leads.directory) leads
  have landing : Landing image dest l' origin [] origin := ⟨within, ordinary', fun names _ _ => rfl⟩
  exact landing.entriesFrom (w := { w with files := origin }) within ordinary'
    ((adds.trans adds').grows.contents content) confined spared unpacked'

/-- How what the entries are unpacked to is found from the destination as it is spelled. -/
structure Landed (image : Bytes) (dest : Path) (l l' : Location) (records : List Archive.Record)
    (before after : FileSystem) : Prop where
  held : ∀ r ∈ records, r.isDirectory = false → ∃ names data, names ≠ [] ∧ AllNames names ∧ Fills dest names r ∧
    lastData? image dest records names = some data ∧ after.data? (l' ++ names) = some data
  looked : ∀ names, names ≠ [] → AllNames names → lastData? image dest records names ≠ none →
    (after.locate .use (dest.join ⟨Bytes.joinWith slash names⟩) = .ok (l' ++ names) ↔
      l = l' ∧ (dest.join ⟨Bytes.joinWith slash names⟩).fault? = none)
  walked : l = l' → Walk.Readable after dest l → ∀ names, names ≠ [] → AllNames names →
    lastData? image dest records names ≠ none → ClassFile.isSynthetic (dest.descendant names) = false →
      .ok (dest.join ⟨Bytes.joinWith slash names⟩) ∈ Walk.items after pathMax dest
  missed : Apart l l' → ∀ names, Walk.Visible after dest l names ↔ Walk.Visible before dest l names

theorem Landing.landed (landing : Landing image dest l' origin records fs) {before : FileSystem}
    (adds : before.AddsDirectories origin fun _ => True) (leads : fs.Leads dest l) (free : fs.LinkFree l)
    (accepted : ∀ r ∈ records, ∃ names, names ≠ [] ∧ AllNames names ∧
      dest.resolveInside r.name = .ok (dest.clean.descendant names)) : Landed image dest l l' records before fs := by
  have sound := landing.within.sound
  have filled : ∀ names, names ≠ [] → AllNames names → lastData? image dest records names ≠ none →
      ∃ data, lastData? image dest records names = some data ∧ fs.data? (l' ++ names) = some data := by
    intro names down valid known
    obtain ⟨data, last⟩ := Option.ne_none_iff_exists'.mp known
    exact ⟨data, last, by rw [landing.data names down valid, last, Option.some_or]⟩
  have joined : ∀ names, names ≠ [] → AllNames names →
      dest.join ⟨Bytes.joinWith slash names⟩ = dest.descendant names := by
    intro names down valid
    rw [← Path.text_descendant_empty valid]
    exact Path.join_descendant_empty dest valid down
  refine ⟨?_, ?_, ?_, ?_⟩
  · intro r member isFile
    obtain ⟨names, down, valid, isPath⟩ := accepted r member
    have known : lastData? image dest records names ≠ none := fun none =>
      lastData?_eq_none_iff.mp none r member ⟨isFile, isPath⟩
    obtain ⟨data, last, held⟩ := filled names down valid known
    exact ⟨names, data, down, valid, ⟨isFile, isPath⟩, last, held⟩
  · intro names down valid known
    obtain ⟨data, _, held⟩ := filled names down valid known
    obtain ⟨mode, there⟩ := data?_eq_some.mp held
    rw [joined names down valid]
    constructor
    · intro located
      obtain ⟨same, _, spelled⟩ := leads.locate_ok free valid down located
      exact ⟨(List.append_cancel_right same).symm, spelled⟩
    · rintro ⟨rfl, spelled⟩
      exact leads.locate_of_node sound free valid down spelled (by rw [there]; rfl) .use
  · rintro rfl readable names down valid known kept
    obtain ⟨data, _, held⟩ := filled names down valid known
    obtain ⟨mode, there⟩ := data?_eq_some.mp held
    have rooted : Rooted dest l fs := ⟨sound, leads⟩
    have all : ∀ item ∈ Walk.items fs pathMax (dest.descendant []), ∃ p, item = .ok p :=
      (Walk.readable_iff rooted).mpr readable
    rw [joined names down valid]
    exact Walk.mem_items rooted all down there rfl kept
  · intro apart names
    rw [← Walk.visible_of_adds adds]
    have same : fs.node? (l ++ names) = origin.node? (l ++ names) := by
      refine landing.within.outside _ ?_
      rintro ⟨more, _, same⟩
      exact apart.ne names more same
    constructor
    · rintro ⟨down, there, kept⟩
      exact ⟨down, same ▸ there, kept⟩
    · rintro ⟨down, there, kept⟩
      exact ⟨down, same ▸ there, kept⟩

/-- Of an archive that is unpacked every entry was accepted. -/
theorem accepted_of_entriesFrom (confined : Confined dest records) {index : Nat}
    (ran : entriesFrom jar dest index records w = .ok () w') : ∀ r ∈ records, ∃ names, names ≠ [] ∧ AllNames names ∧
      dest.resolveInside r.name = .ok (dest.clean.descendant names) := by
  induction records generalizing index w with
  | nil => simp
  | cons r rest ih =>
    obtain ⟨_, w₁, first, others⟩ := Task.bind_ok ran
    have later := ih (fun other member => confined other (List.mem_cons_of_mem _ member)) others
    obtain ⟨names, _, _, down, valid, accepted, _⟩ := unpacks_of_entry confined List.mem_cons_self first
    rintro other (_ | ⟨_, member⟩)
    · exact ⟨names, down, valid, accepted⟩
    · exact later other member

/-- The destination and its cleaned form lead to one place if the names of the destination come last, or no link is on the
way. -/
theorem leads_agree (sound : w.files.Sound) (made : w.files.makeDirectories dest = (.ok (), ready))
    (evolves : ready.Evolves fs) (leads : fs.Leads dest l) (leads' : fs.Leads dest.clean l')
    (spelling : dest.Straight ∨ w.files.Plain dest) : l = l' := by
  rcases spelling with straight | plain
  · exact (leads.clean_of_straight straight).unique leads'
  · have adds := sound.makeDirectories_grow dest
    have soundReady := (Evolves.makeDirectories sound dest).sound
    have leadsReady := (sound.leads_of_makeDirectories plain made).1
    rw [made] at adds soundReady
    rw [← place_congr adds.here] at leadsReady
    have clean := soundReady.leads_clean leadsReady.directory
    exact ((leadsReady.mono evolves.keeps).unique leads).symm.trans ((clean.mono evolves.keeps).unique leads')

/-- What an archive is unpacked to is put below the place that the cleaned destination leads to: each file holds what the
last entry for it holds. From the destination as it is spelled it is found, by path or by a walk, just if that leads to the
same place, and to a path that the system takes. If it leads elsewhere, a walk sees there what it would have seen before. -/
theorem entries_land (sound : w.files.Sound) (guarded : dest.Guarded)
    (opened : openArchive archive w.files = .ok (jar, records)) (content : w.files.contents jar = .ok image)
    (ran : extract archive dest w = .ok count w') :
    ∃ l, w'.files.Leads dest l ∧ (walk dest : Task WalkError _) w' = .ok (Walk.items w'.files pathMax dest) w' ∧
      (records ≠ [] → ∃ l', w'.files.Leads dest.clean l') ∧
      ∀ l', w'.files.Leads dest.clean l' → (dest.Straight ∨ w.files.Plain dest → l = l') ∧
        (w.files.LinkFree l → w.files.Ordinary l' → Spared dest l' jar records →
          Landed image dest l l' records w.files w'.files) := by
  obtain ⟨evolves, _, l, leads⟩ := leads_of_extract sound ran
  have landing := landing_of_extract sound guarded opened content ran
  obtain ⟨ready, made, unpacked, _⟩ := entries_of_extract opened ran
  have confined : Confined dest records := .of_guarded guarded records
  have soundReady := (Evolves.makeDirectories sound dest).sound
  have adds := sound.makeDirectories_grow dest
  rw [made] at soundReady adds
  have start : Keeps ready.Evolves w.calls { w with files := ready } := ⟨.refl soundReady, rfl⟩
  have kept := (keeps_entriesFrom (fun _ _ p _ => upheld_evolves ready p) jar 0 start).of_ok unpacked
  refine ⟨l, leads, Walk.walk_eq_items ⟨evolves.sound, leads⟩, fun some => (landing some).imp fun _ both => both.1,
    fun l' leads' => ⟨?_, ?_⟩⟩
  · exact leads_agree sound made kept.files leads leads'
  · intro free ordinary spared
    by_cases some : records = []
    · subst some
      cases unpacked
      exact ⟨by simp, fun _ _ _ known => absurd rfl known, fun _ _ _ _ _ known => absurd rfl known,
        fun _ names => Walk.visible_of_adds adds⟩
    · obtain ⟨m, leadsThere, lands⟩ := landing some
      obtain rfl := leadsThere.unique leads'
      obtain ⟨origin, addsOrigin, landing⟩ := lands ordinary spared
      exact landing.landed addsOrigin leads (evolves.linkFree free) (accepted_of_entriesFrom confined unpacked)

end Unpacking

/-! A destination whose spelling goes through a link and back, and an archive of one class. -/

namespace Crossed

def image : Bytes :=
  Archive.stored [(ascii "A.class", ascii "a")]

def archive : Path := ⟨ascii "j"⟩

def dest : Path := ⟨ascii "k/../s"⟩

def world : World :=
  { files :=
    { nodes := [([], .directory 0o755), ([ascii "j"], .file 0o644 image), ([ascii "d"], .directory 0o755),
        ([ascii "d", ascii "x"], .directory 0o755), ([ascii "k"], .link ⟨ascii "d/x"⟩)]
      here := [] } }

def records : List Archive.Record :=
  (Archive.directory image).toOption.getD []

end Crossed

theorem entries_land_crossed : Crossed.world.files.Sound ∧ Crossed.dest.Guarded ∧
    openArchive Crossed.archive Crossed.world.files = .ok ([ascii "j"], Crossed.records) ∧
    Crossed.world.files.contents [ascii "j"] = .ok Crossed.image ∧
    ∃ w', extract Crossed.archive Crossed.dest Crossed.world = .ok 1 w' ∧
      Landed Crossed.image Crossed.dest [ascii "d", ascii "s"] [ascii "s"] Crossed.records Crossed.world.files w'.files ∧
      w'.files.data? [ascii "s", ascii "A.class"] = some (ascii "a") ∧ w'.files.has ⟨ascii "k/../s/A.class"⟩ = false := by
  have sound : Crossed.world.files.Sound := .of_nodes (by decide +kernel) (by decide) (by decide) (by decide)
  have guarded : Crossed.dest.Guarded := by
    rw [Path.Guarded]
    decide
  have opened : openArchive Crossed.archive Crossed.world.files = .ok ([ascii "j"], Crossed.records) := by decide +kernel
  have content : Crossed.world.files.contents [ascii "j"] = .ok Crossed.image := by decide +kernel
  have ran : extract Crossed.archive Crossed.dest Crossed.world = .ok 1 _ := Task.ok_of_outcome (by decide +kernel)
  obtain ⟨l, leads, _, _, lands⟩ := entries_land sound guarded opened content ran
  obtain rfl : l = [ascii "d", ascii "s"] := leads.unique ⟨by decide +kernel, by decide +kernel⟩
  -- nothing is there yet where the entries land, nor where they are looked for
  have vacant : ∀ l ∈ [[ascii "d", ascii "s"], [ascii "s"]], ∀ names, Crossed.world.files.node? (l ++ names) = none := by
    intro l member names
    by_contra there
    obtain ⟨node, there⟩ := Option.ne_none_iff_exists'.mp there
    have known := of_nodes (p := fun at' _ => ∀ l ∈ [[ascii "d", ascii "s"], [ascii "s"]], ¬ l <+: at')
      (by decide +kernel) there
    exact known l member (List.prefix_append l names)
  refine ⟨sound, guarded, opened, content, _, ran, (lands [ascii "s"] ⟨by decide +kernel, by decide +kernel⟩).2 ?_ ?_ ?_,
    by decide +kernel, by decide +kernel⟩
  · intro names target there
    rw [vacant _ (by simp) names] at there
    cases there
  · intro names _ node there
    rw [vacant _ (by simp) names] at there
    cases there
  · intro r _ names _ _ same
    exact absurd (List.head_eq_of_cons_eq same) (by decide)

end Extract

end Unjar
