import SchemaDiagram.Proofs.Routing.Waypoint
import SchemaDiagram.Routing.Edge

/-! # Routes along the axes

A route along the axes stays on them when its corners are cut: a corner is cut between points of its two legs, and at
most half of a leg is cut off. So the route leaves the one table and enters the other straight across their sides, and
its arrow heads point straight into the tables.
-/
namespace SchemaDiagram

variable {h k : Heading} {p q r : Point ℝ}

/-! ## Corners between legs -/

/-- The corner between two legs is left as it is, or cut between points of both legs. -/
theorem turn_legs (hpq : Leg h p q) (hqr : Leg k q r) (radius : ℝ) :
    turn radius p q r = [.lineTo q] ∨
    ∃ d, d ≤ p.distance q / 2 ∧ turn radius p q r = [.lineTo (q.walk h (-d)), .quadTo q (q.walk k d)] := by
  have hdirection {h : Heading} {p q : Point ℝ} (hpq : Leg h p q) : (q - p).normalizeOr Point.zero = ⟨h.dx, h.dy⟩ := by
    obtain ⟨d, hd, rfl⟩ := hpq
    exact p.normalizeOr_walk_sub h (le_trans (by norm_num) hd)
  have hback (d : ℝ) : q - (⟨h.dx, h.dy⟩ : Point ℝ).scale d = q.walk h (-d) := by
    simp only [Point.sub_real, Point.scale_real, Point.walk, Point.mk.injEq]
    constructor <;> ring
  have hforth (d : ℝ) : q + (⟨k.dx, k.dy⟩ : Point ℝ).scale d = q.walk k d := by
    simp only [Point.add_real, Point.scale_real, Point.walk, Point.mk.injEq]
    constructor <;> ring
  simp only [turn]
  rw [hdirection hpq, hdirection hqr, hback, hforth]
  split
  · exact .inl rfl
  · exact .inr ⟨_, cornerRadius_le_before radius p q r, rfl⟩

theorem Piece.aligned_line (haligned : p.Aligned q) : ∀ leg ∈ (line p q).legs, leg.1.Aligned leg.2 :=
  List.forall_mem_singleton.mpr haligned

theorem Piece.aligned_quad (hin : p.Aligned q) (hout : q.Aligned r) :
    ∀ leg ∈ (quad p q r).legs, leg.1.Aligned leg.2 :=
  List.forall_mem_cons.mpr ⟨hin, List.forall_mem_singleton.mpr hout⟩

/-- What is drawn along legs with cut corners runs along the axes. -/
theorem aligned_of_mem_drawnFrom (radius : ℝ) {more rest : List (Point ℝ)} {last : Point ℝ}
    (hlegs : (p :: more ++ [last]).IsChain Leads) (hnext : more ++ [last] = q :: rest) (hpq : Leg h p q) (t : ℝ) :
    ∀ piece ∈ drawnFrom (p.walk h t) (turns radius (p :: more ++ [last]) ++ [.lineTo last]),
      ∀ leg ∈ piece.legs, leg.1.Aligned leg.2 := by
  -- The pen stands somewhere on the line of the first leg: at its start, or where the corner before it was cut.
  induction more generalizing h p q rest t with
  | nil =>
      obtain ⟨rfl, -⟩ := List.cons.inj hnext
      obtain ⟨d, -, rfl⟩ := hpq
      exact List.forall_mem_singleton.mpr (Piece.aligned_line (p.walk_aligned h t d))
  | cons corner more ih =>
      obtain ⟨rfl, -⟩ := List.cons.inj hnext
      obtain ⟨r, tail, hmore, hturns⟩ := exists_turns_cons radius p corner more last
      have hlater : (corner :: more ++ [last]).IsChain Leads := (List.isChain_cons_cons.mp hlegs).2
      obtain ⟨k, hqr⟩ : Leads corner r := by
        have hstart : (corner :: r :: tail).IsChain Leads := hmore ▸ hlater
        exact (List.isChain_cons_cons.mp hstart).1
      have hfirst (e : ℝ) : (p.walk h t).Aligned (corner.walk h e) := by
        obtain ⟨d, -, rfl⟩ := hpq
        rw [Point.walk_walk]
        exact p.walk_aligned h t (d + e)
      rw [hturns]
      rcases turn_legs hpq hqr radius with hturn | ⟨d, -, hturn⟩
      · have hline := hfirst 0
        have hrest := ih hlater hmore hqr 0
        rw [Point.walk_zero] at hline hrest
        rw [hturn]
        exact List.forall_mem_cons.mpr ⟨Piece.aligned_line hline, hrest⟩
      · have hin := corner.walk_aligned h (-d) 0
        have hout := corner.walk_aligned k 0 d
        rw [Point.walk_zero] at hin hout
        rw [hturn]
        exact List.forall_mem_cons.mpr ⟨Piece.aligned_line (hfirst (-d)),
          List.forall_mem_cons.mpr ⟨Piece.aligned_quad hin hout, ih hlater hmore hqr d⟩⟩

/-! ## The first line -/

/-- At most half of the first leg is cut off, so the first line is as long as can be told. -/
theorem exists_rounded_eq {points more : List (Point ℝ)} (hpoints : simplify points = p :: q :: more)
    (hpq : Leg h p q) (hlegs : (q :: more).IsChain Leads) (radius : ℝ) :
    ∃ d rest, tolerance < d ∧ rounded points radius = .moveTo p :: .lineTo (p.walk h d) :: rest := by
  have hdistance : p.distance q / 2 > tolerance := by
    have hle := hpq.le_distance
    rw [tolerance_real]
    linarith
  have hlong : tolerance < p.distance q := by
    have hpos := tolerance_pos
    linarith
  obtain ⟨d, hd, rfl⟩ := hpq
  have hd' : (0 : ℝ) ≤ d := le_trans (by positivity) hd
  rw [p.distance_walk h hd'] at hdistance hlong
  cases more with
  | nil => exact ⟨d, [], hlong, by simp only [rounded, hpoints]; rfl⟩
  | cons r more =>
      obtain ⟨⟨k, hqr⟩, -⟩ := List.isChain_cons_cons.mp hlegs
      simp only [rounded, hpoints, turns]
      rcases turn_legs ⟨d, hd, rfl⟩ hqr radius with hturn | ⟨e, he, hturn⟩
      · exact ⟨d, _, hlong, by rw [hturn]; rfl⟩
      · rw [p.distance_walk h hd'] at he
        rw [hturn, Point.walk_walk]
        exact ⟨d + -e, _, by linarith, rfl⟩

variable {a : Anchors ℝ} {o : RoutingOptions ℝ}

/-- The route along the axes starts with a line straight out of the side of its anchor. -/
theorem exists_orthogonalPath_eq (hstub : 1 / 10 ^ 5 ≤ o.stub) (hlane : 1 / 10 ^ 5 ≤ o.laneOffset)
    (hspaced : (orthogonalPoints a o).IsChain Point.Spaced) :
    ∃ d rest, tolerance < d ∧
      orthogonalPath a o = .moveTo a.source :: .lineTo (a.source.walk a.sourceSide.heading d) :: rest := by
  have hsteps := isChain_steps_orthogonalPoints o hspaced
  obtain ⟨p, rest, hpoints, hleg⟩ := exists_leg_orthogonalPoints (a := a) o hstub hlane
  have hlegs := isChain_simplify hsteps
  rw [hpoints] at hsteps hlegs
  obtain ⟨q, more, heq, hleg'⟩ := exists_leg_simplify hleg (List.isChain_cons_cons.mp hsteps).2
  rw [heq] at hlegs
  rw [orthogonalPath, hpoints]
  exact exists_rounded_eq heq hleg' (List.isChain_cons_cons.mp hlegs).2 o.cornerRadius

/-! ## Arrow heads -/

theorem startDirection?_eq {d : ℝ} (hd : tolerance < d) (rest : List (PathCommand ℝ)) :
    startDirection? (.moveTo p :: .lineTo (p.walk h d) :: rest) = some ⟨h.dx, h.dy⟩ := by
  have hle : 1 / 10 ^ 9 ≤ d := by
    rw [tolerance_real] at hd
    exact le_trans (by norm_num) hd.le
  have hdistance : (p.walk h d).distance p = d := by
    rw [Point.distance_comm, p.distance_walk h (tolerance_pos.trans hd).le]
  have hfind : startDirection? (.moveTo p :: .lineTo (p.walk h d) :: rest) =
      ((p.walk h d :: pathPoints rest).find? fun q => tolerance < q.distance p).map
        fun q => (q - p).normalizeOr Point.zero := rfl
  rw [hfind, List.find?_cons_of_pos (by simpa only [hdistance, decide_eq_true_eq] using hd), Option.map_some,
    p.normalizeOr_walk_sub h hle]

namespace ArrowHead

/-- The arrow head that points straight into the side of a table. -/
noncomputable def into (tip : Point ℝ) (side : Side) (length width : ℝ) : ArrowHead ℝ :=
  ⟨tip, ⟨tip.x + side.outward * length, tip.y - side.outward * (width / 2)⟩,
    ⟨tip.x + side.outward * length, tip.y + side.outward * (width / 2)⟩⟩

theorem pointing_into (tip : Point ℝ) (side : Side) (length width : ℝ) :
    pointing tip ⟨-side.outward, 0⟩ length width = into tip side length width := by
  have hlength : (⟨-side.outward, 0⟩ : Point ℝ).length = 1 := by
    rw [Point.length_real, mul_zero, add_zero, neg_mul_neg, Side.outward_mul_self, Real.sqrt_one]
  have hnormal (fallback : Point ℝ) :
      (⟨-side.outward, 0⟩ : Point ℝ).normalizeOr fallback = ⟨-side.outward, 0⟩ := by
    rw [Point.normalizeOr_real, hlength, if_neg (by norm_num), div_one, div_one]
  have hturned : (⟨-side.outward, 0⟩ : Point ℝ).perpendicular = ⟨-0, -side.outward⟩ := rfl
  simp only [pointing, into, hnormal, hturned, Point.sub_real, Point.add_real, Point.scale_real, mk.injEq,
    Point.mk.injEq, true_and]
  rw [Coordinate.two_real]
  refine ⟨⟨?_, ?_⟩, ⟨?_, ?_⟩⟩ <;> ring

end ArrowHead

/-! ## The route -/

/-- The path leaves the one table and enters the other straight across their sides, and runs along the axes in
between. -/
structure RunsAlongAxes (a : Anchors ℝ) (commands : List (PathCommand ℝ)) : Prop where
  start : commands.head? = some (.moveTo a.source)
  stop : commands.getLast?.map PathCommand.stop = some a.target
  aligned : ∀ piece ∈ pieces commands, ∀ leg ∈ piece.legs, leg.1.Aligned leg.2
  leaves : ∃ p rest, pieces commands = .line a.source p :: rest ∧
    p.y = a.source.y ∧ 0 < (p.x - a.source.x) * a.sourceSide.outward
  enters : ∃ front p, pieces commands = front ++ [.line p a.target] ∧
    p.y = a.target.y ∧ 0 < (p.x - a.target.x) * a.targetSide.outward

theorem walk_heading_out (p : Point ℝ) (side : Side) {d : ℝ} (hd : 0 < d) :
    (p.walk side.heading d).y = p.y ∧ 0 < ((p.walk side.heading d).x - p.x) * side.outward := by
  have hx : ((p.walk side.heading d).x - p.x) * side.outward = d * (side.outward * side.outward) := by
    simp only [Point.walk, Side.dx_heading]
    ring
  refine ⟨by simp [Point.walk, Side.dy_heading], ?_⟩
  rwa [hx, Side.outward_mul_self, mul_one]

theorem aligned_orthogonalPath (hspaced : (orthogonalPoints a o).IsChain Point.Spaced) :
    ∀ piece ∈ pieces (orthogonalPath a o), ∀ leg ∈ piece.legs, leg.1.Aligned leg.2 := by
  have hlegs := isChain_simplify (isChain_steps_orthogonalPoints o hspaced)
  rw [orthogonalPath]
  rcases hpoints : simplify (orthogonalPoints a o) with _ | ⟨p, rest⟩
  · simp [rounded, hpoints, pieces]
  · rcases List.eq_nil_or_concat' rest with rfl | ⟨more, last, rfl⟩
    · simp [rounded, hpoints, pieces, drawnFrom, Piece.legs, PathCommand.stop, Point.Aligned]
    · rw [hpoints] at hlegs
      rw [rounded_eq hpoints]
      obtain ⟨q, tail, hmore⟩ : ∃ q tail, more ++ [last] = q :: tail := List.exists_cons_of_ne_nil (by simp)
      obtain ⟨h, hpq⟩ : Leads p q := by
        rw [hmore] at hlegs
        exact (List.isChain_cons_cons.mp hlegs).1
      have haligned := aligned_of_mem_drawnFrom o.cornerRadius hlegs hmore hpq 0
      rwa [Point.walk_zero] at haligned

/-- A route along the axes whose points can be told from each other leads from the one anchor to the other, along the
axes all the way, and straight across the sides of both tables. Its arrow heads point straight into the tables. -/
theorem orthogonalPath_runsAlongAxes (a : Anchors ℝ) (o : RoutingOptions ℝ) (hstub : 1 / 10 ^ 5 ≤ o.stub)
    (hlane : 1 / 10 ^ 5 ≤ o.laneOffset) (hspaced : (orthogonalPoints a o).IsChain Point.Spaced) :
    RunsAlongAxes a (orthogonalPath a o) ∧
    ∀ kind, ArrowHead.ofPath kind (orthogonalPath a o) a o =
      (if kind.pointsAtFrom then [.into a.source a.sourceSide o.arrowLength o.arrowWidth] else []) ++
        if kind.pointsAtTo then [.into a.target a.targetSide o.arrowLength o.arrowWidth] else [] := by
  have hspaced' : (orthogonalPoints a.swap o).IsChain Point.Spaced := by
    rw [orthogonalPoints_swap]
    exact List.isChain_reverse.mpr (hspaced.imp fun _ _ => Point.Spaced.symm)
  have hback := turnedBack_orthogonalPath o hspaced
  obtain ⟨d, rest, hd, hpath⟩ := exists_orthogonalPath_eq hstub hlane hspaced
  obtain ⟨d', rest', hd', hpath'⟩ := exists_orthogonalPath_eq hstub hlane hspaced'
  have hstart : startDirection? (orthogonalPath a o) = some ⟨a.sourceSide.outward, 0⟩ := by
    rw [hpath, startDirection?_eq hd, Side.dx_heading, Side.dy_heading]
  have hstart' : startDirection? (orthogonalPath a.swap o) = some ⟨a.targetSide.outward, 0⟩ := by
    rw [hpath', startDirection?_eq hd', Side.dx_heading, Side.dy_heading]
    rfl
  refine ⟨⟨?_, ?_, aligned_orthogonalPath hspaced, ?_, ?_⟩, fun kind => ?_⟩
  · rw [hpath]
    rfl
  · have hdrawn : path .orthogonal a o = .ok (orthogonalPath a o) := rfl
    obtain ⟨-, c, hc, -⟩ := joins_of_path hdrawn
    have hstop := getLast?_pathPoints hc
    rw [← List.head?_reverse, ← hback.points_eq, hpath'] at hstop
    rw [hc]
    exact hstop.symm
  · rw [hpath, pieces_lineTo]
    exact ⟨_, _, rfl, walk_heading_out a.source a.sourceSide (tolerance_pos.trans hd)⟩
  · rw [hback.symm.pieces_eq, hpath', pieces_lineTo, List.reverse_cons, List.map_append]
    exact ⟨_, _, rfl, walk_heading_out a.target a.targetSide (tolerance_pos.trans hd')⟩
  · rw [ArrowHead.ofPath_real, endDirection?_eq hback.points_eq, hstart, hstart']
    simp only [Option.map_some, Option.getD_some, Point.scale_real, mul_neg, mul_one, neg_zero,
      ArrowHead.pointing_into]

/-- Anchors that face each other without room for both stubs. -/
noncomputable def steppedAnchors : Anchors ℝ := ⟨⟨600, 48⟩, ⟨590, 348⟩, .right, .left, false⟩

theorem orthogonalPath_runsAlongAxes_stepped :
    (1 / 10 ^ 5 : ℝ) ≤ RoutingOptions.standard.stub ∧ (1 / 10 ^ 5 : ℝ) ≤ RoutingOptions.standard.laneOffset ∧
      (orthogonalPoints steppedAnchors .standard).IsChain Point.Spaced ∧
      RunsAlongAxes steppedAnchors (orthogonalPath steppedAnchors .standard) := by
  have hstub : (1 / 10 ^ 5 : ℝ) ≤ RoutingOptions.standard.stub := by
    rw [RoutingOptions.stub_standard]
    norm_num
  have hlane : (1 / 10 ^ 5 : ℝ) ≤ RoutingOptions.standard.laneOffset := by
    rw [RoutingOptions.laneOffset_standard]
    norm_num
  have hpoints : orthogonalPoints steppedAnchors .standard =
      [⟨600, 48⟩, ⟨620, 48⟩, ⟨620, 198⟩, ⟨570, 198⟩, ⟨570, 348⟩, ⟨590, 348⟩] := by
    rw [orthogonalPoints_real, RoutingOptions.stub_standard, if_neg (by decide), if_neg]
    · simp only [steppedAnchors, Side.outward_left, Side.outward_right]
      norm_num
    · simp only [steppedAnchors, Side.outward_right]
      norm_num
  have hspaced : (orthogonalPoints steppedAnchors .standard).IsChain Point.Spaced := by
    rw [hpoints]
    simp only [List.isChain_cons_cons, List.isChain_singleton, and_true]
    exact ⟨Point.spaced_of_x (by norm_num), Point.spaced_of_y (by norm_num), Point.spaced_of_x (by norm_num),
      Point.spaced_of_y (by norm_num), Point.spaced_of_x (by norm_num)⟩
  exact ⟨hstub, hlane, hspaced, (orthogonalPath_runsAlongAxes steppedAnchors .standard hstub hlane hspaced).1⟩

end SchemaDiagram
