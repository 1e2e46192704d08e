import SceneWorks.WorkflowMp4.Boxes

/-!
The walk on arbitrary bytes. Every limit handed down is the end of an enclosing box, so
it stays inside the file; hence no read fails for want of bytes. Every box of the
container path is counted before it is looked at, and the box after the last one allowed
ends the walk.
-/

namespace SceneWorks.WorkflowMp4

variable {s : Slice}

/-- No read of the computation left the file. -/
def ReadsInside {α : Type} (result : Except WorkflowMp4Error α) : Prop :=
  ∀ detail, result ≠ .error (.io detail)

theorem readsInside_ok {α : Type} (a : α) : ReadsInside (.ok a) := fun _ h => by cases h

theorem readsInside_error {α : Type} {e : WorkflowMp4Error} (h : ∀ detail, e ≠ .io detail) :
    ReadsInside (.error e : Except WorkflowMp4Error α) :=
  fun detail heq => h detail (Except.error.inj heq)

theorem saturatingAdd_le_iff {a b limit : Nat} (hlimit : limit < 2 ^ 63) :
    saturatingAdd a b ≤ limit ↔ a + b ≤ limit := by
  simp only [saturatingAdd]
  omega

theorem readExact_inside {offset count : Nat} (h : offset + count ≤ s.length) :
    readExact s offset count = .ok ((s.bytes.drop offset).take count) :=
  readExact_eq_ok_iff.mpr ⟨h, rfl⟩

section Headers

variable {offset limit : Nat}

/-- A header that describes a box between `offset` and `limit`. -/
structure Within (offset limit : Nat) (header : BoxHeader) : Prop where
  body : offset + boxHeaderLength ≤ header.bodyStart
  stop : header.bodyStart ≤ header.stop
  limit : header.stop ≤ limit

theorem fitBox_cases (kind : Bytes) {extent : Nat × Nat}
    (hextent : offset + boxHeaderLength ≤ extent.1) :
    (∃ reason, fitBox kind offset limit extent = .error (.malformed reason)) ∨
      ∃ header, fitBox kind offset limit extent = .ok (some header) ∧
        Within offset limit header := by
  rw [fitBox, checkedAdd]
  split
  · exact .inl ⟨_, rfl⟩
  · rename_i stop hstop
    split
    · exact .inl ⟨_, rfl⟩
    · rename_i hfits
      simp only [Bool.or_eq_true, decide_eq_true_eq, not_or, Nat.not_lt] at hfits
      have hbody : extent.1 ≤ stop := by
        split at hstop
        · cases hstop
          simp only [boxHeaderLength] at hextent
          omega
        · cases hstop
      exact .inr ⟨_, rfl, hextent, hbody, hfits.2⟩

theorem boxExtent_cases (hlimit : limit ≤ s.length) (offset declared : Nat) :
    boxExtent s offset limit declared = .error (.malformed .largeSizePastEnd) ∨
      ∃ extent, boxExtent s offset limit declared = .ok extent ∧
        offset + boxHeaderLength ≤ extent.1 := by
  have hsmall : limit < 2 ^ 63 := hlimit.trans_lt s.fits
  rw [boxExtent]
  split
  · split
    · exact .inl rfl
    · rename_i hroom
      have hread : offset + boxHeaderLength + 8 ≤ s.length := by
        have hfits := (saturatingAdd_le_iff hsmall).mp (Nat.le_of_not_lt hroom)
        simp only [boxHeaderLength]
        omega
      rw [readExact_inside hread]
      exact .inr ⟨_, rfl, by simp [boxHeaderLength]⟩
  · split
    · exact .inr ⟨_, rfl, Nat.le_refl _⟩
    · exact .inr ⟨_, rfl, Nat.le_refl _⟩

/-- A header read either is refused, finds no room, or describes a box inside the limit. -/
theorem readBoxHeader_cases (hlimit : limit ≤ s.length) (offset : Nat) :
    (∃ reason, readBoxHeader s offset limit = .error (.malformed reason)) ∨
      readBoxHeader s offset limit = .ok none ∨
      ∃ header, readBoxHeader s offset limit = .ok (some header) ∧
        Within offset limit header := by
  have hsmall : limit < 2 ^ 63 := hlimit.trans_lt s.fits
  rw [readBoxHeader]
  split
  · exact .inr (.inl rfl)
  · rename_i hroom
    have hread : offset + 8 ≤ s.length :=
      ((saturatingAdd_le_iff hsmall).mp (Nat.le_of_not_lt hroom)).trans hlimit
    rw [readExact_inside hread]
    dsimp only
    rcases boxExtent_cases hlimit offset
      (BigEndian.value (((s.bytes.drop offset).take 8).take 4)) with herror | ⟨extent, hok, hbody⟩
    · rw [herror]
      exact .inl ⟨_, rfl⟩
    · rw [hok]
      exact (fitBox_cases _ hbody).imp id .inr

end Headers

section Comment

theorem readDataBox_inside {offset limit : Nat} {header : BoxHeader} (hlimit : limit ≤ s.length)
    (h : Within offset limit header) : ReadsInside (readDataBox s header) := by
  simp only [readDataBox]
  split
  · exact readsInside_error fun _ h => by cases h
  · split
    · exact readsInside_error fun _ h => by cases h
    · have hread : header.bodyStart + dataBoxPrefixLength +
          (header.stop - (header.bodyStart + dataBoxPrefixLength)) ≤ s.length := by
        have hstop := h.limit
        omega
      rw [readExact_inside hread]
      dsimp only
      split
      · exact readsInside_error fun _ h => by cases h
      · exact readsInside_ok _

theorem Within.advance {offset limit : Nat} {header : BoxHeader} (h : Within offset limit header) :
    offset < header.stop := by
  have hbody := h.body
  have hstop := h.stop
  simp only [boxHeaderLength] at hbody
  omega

theorem readCommentData_inside {limit : Nat} (hlimit : limit ≤ s.length) (offset : Nat) :
    ReadsInside (readCommentData s limit offset) := by
  induction hrest : s.length - offset using Nat.strong_induction_on generalizing offset with
  | _ n ih =>
    rcases readBoxHeader_cases hlimit offset with ⟨reason, hread⟩ | hread | ⟨header, hread, hwithin⟩
    · rw [readCommentData_of_error hread]
      exact readsInside_error fun _ h => by cases h
    · rw [readCommentData_of_none hread]
      exact readsInside_ok _
    · have hadvance := hwithin.advance
      have hroom := readBoxHeader_room hread
      rw [readCommentData_of_some hread hadvance]
      split
      · exact readDataBox_inside hlimit hwithin
      · simp only [boxHeaderLength] at hroom
        exact ih (s.length - header.stop) (by omega) header.stop rfl

end Comment

section Walk

/-- A walk that read only inside the file and counted no further than one box too many,
and that only to refuse the file. -/
structure Bounded (scanned : Nat) (walked : Walked) : Prop where
  inside : ReadsInside walked.2
  counted : scanned ≤ walked.1
  most : walked.1 ≤ maxBoxesScanned + 1
  refused : walked.1 = maxBoxesScanned + 1 → walked.2 = .error (.malformed .tooManyBoxes)

variable {limit : Nat} {visit : BoxHeader → Nat → Walked}

theorem bounded_here {scanned : Nat} {result : Except WorkflowMp4Error (Option String)}
    (hscanned : scanned ≤ maxBoxesScanned) (hinside : ReadsInside result) :
    Bounded scanned (scanned, result) where
  inside := hinside
  counted := Nat.le_refl _
  most := by dsimp only; omega
  refused h := by dsimp only at h; omega

/-- The sibling loop is bounded when the visit of each box inside the limit is. -/
theorem bounded_scanBoxes (hlimit : limit ≤ s.length)
    (hvisit : ∀ offset header scanned, Within offset limit header → scanned ≤ maxBoxesScanned →
      Bounded scanned (visit header scanned)) (offset scanned : Nat)
    (hscanned : scanned ≤ maxBoxesScanned) :
    Bounded scanned (scanBoxes s limit visit offset scanned) := by
  induction hrest : s.length - offset using Nat.strong_induction_on
    generalizing offset scanned with
  | _ n ih =>
    rcases readBoxHeader_cases hlimit offset with ⟨reason, hread⟩ | hread | ⟨header, hread, hwithin⟩
    · rw [scanBoxes_of_error hread]
      exact bounded_here hscanned (readsInside_error fun _ h => by cases h)
    · rw [scanBoxes_of_none hread]
      exact bounded_here hscanned (readsInside_ok _)
    · have hadvance := hwithin.advance
      have hroom := readBoxHeader_room hread
      rw [scanBoxes_of_some hread hadvance]
      split
      · -- The box after the last one allowed: counted, and refused.
        refine ⟨readsInside_error (fun _ h => by cases h), Nat.le_succ _, ?_, fun _ => rfl⟩
        dsimp only
        omega
      · have hnext := hvisit offset header (scanned + 1) hwithin (by omega)
        have hmore : scanned ≤ (visit header (scanned + 1)).1 :=
          (Nat.le_succ scanned).trans hnext.counted
        split
        · next n e heq =>
            rw [heq] at hnext hmore
            exact ⟨hnext.inside, hmore, hnext.most, hnext.refused⟩
        · next n text heq =>
            rw [heq] at hnext hmore
            exact ⟨hnext.inside, hmore, hnext.most, hnext.refused⟩
        · next n heq =>
            rw [heq] at hnext hmore
            have hallowed : n ≤ maxBoxesScanned := by
              rcases Nat.lt_or_eq_of_le hnext.most with hlt | hlast
              · exact Nat.le_of_lt_succ hlt
              · cases hnext.refused hlast
            simp only [boxHeaderLength] at hroom
            have hrestBounded := ih (s.length - header.stop) (by omega) header.stop n hallowed rfl
            exact ⟨hrestBounded.inside, hmore.trans hrestBounded.counted, hrestBounded.most,
              hrestBounded.refused⟩

theorem metaBodyStart_cases {bodyStart stop : Nat} (hbody : bodyStart ≤ stop)
    (hstop : stop ≤ s.length) :
    ∃ start, metaBodyStart s bodyStart stop = .ok start ∧ start ≤ stop := by
  have hsmall : stop < 2 ^ 63 := hstop.trans_lt s.fits
  rw [metaBodyStart]
  split
  · exact ⟨bodyStart, rfl, hbody⟩
  · rename_i hroom
    have hfits := (saturatingAdd_le_iff hsmall).mp (Nat.le_of_not_lt hroom)
    rw [readExact_inside (hfits.trans hstop)]
    dsimp only
    split
    · exact ⟨bodyStart, rfl, hbody⟩
    · exact ⟨bodyStart + 4, rfl, by omega⟩

theorem bounded_descend (path : List Bytes) (start limit depth scanned : Nat)
    (hlimit : limit ≤ s.length) (hscanned : scanned ≤ maxBoxesScanned) :
    Bounded scanned (descend s path start limit depth scanned) := by
  induction path generalizing start limit depth scanned with
  | nil =>
      rw [descend]
      split
      · exact bounded_here hscanned (readsInside_ok _)
      · refine bounded_scanBoxes hlimit (fun offset header scanned hwithin hscanned => ?_) start
          scanned hscanned
        rw [visitItem]
        split
        · exact bounded_here hscanned
            (readCommentData_inside (hwithin.limit.trans hlimit) header.bodyStart)
        · exact bounded_here hscanned (readsInside_ok _)
  | cons kind path ih =>
      rw [descend]
      split
      · exact bounded_here hscanned (readsInside_ok _)
      · refine bounded_scanBoxes hlimit (fun offset header scanned hwithin hscanned => ?_) start
          scanned hscanned
        have hstop : header.stop ≤ s.length := hwithin.limit.trans hlimit
        split
        · obtain ⟨bodyStart, hstart⟩ : ∃ bodyStart, childrenStart s header = .ok bodyStart := by
            rw [childrenStart]
            split
            · obtain ⟨bodyStart, hstart, -⟩ := metaBodyStart_cases hwithin.stop hstop
              exact ⟨bodyStart, hstart⟩
            · exact ⟨_, rfl⟩
          rw [hstart]
          exact ih bodyStart header.stop (depth + 1) scanned hstop hscanned
        · exact bounded_here hscanned (readsInside_ok _)

theorem bounded_findComment (s : Slice) : Bounded 0 (findComment s) :=
  bounded_descend containerPath 0 s.length 0 0 (Nat.le_refl _) (Nat.zero_le _)

end Walk

end SceneWorks.WorkflowMp4
