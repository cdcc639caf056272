import ServingTuner.Json.Equality
import ServingTuner.Json.Printer
import ServingTuner.Json.Reader
import ServingTuner.Coordinate.Checked
import ServingTuner.Coordinate.Ball
import ServingTuner.Dimension
import ServingTuner.Bounds
import ServingTuner.Constraint.Reader
import ServingTuner.ModelConfig
import ServingTuner.ServedModel
import ServingTuner.BenchmarkFlags
import ServingTuner.RunConfig
import ServingTuner.VariantNames
import ServingTuner.Generator
import ServingTuner.Options
import ServingTuner.Logging
import ServingTuner.Neighborhood
import ServingTuner.HillClimb
import ServingTuner.SyntheticBench
import ServingTuner.Version
import ServingTuner.Proofs.Dimension.Units
import ServingTuner.Proofs.Coordinate.Walk
import ServingTuner.Proofs.Coordinate.Wrapping
import ServingTuner.Proofs.Coordinate.Metric
import ServingTuner.Proofs.Generator.Identity
import ServingTuner.Proofs.Generator.Resolution
import ServingTuner.Proofs.Ranking.Gain
import ServingTuner.Proofs.Search.Ending
import ServingTuner.Proofs.Search.Climbing
import ServingTuner.Proofs.VariantNames.Distinct
import ServingTuner.Proofs.VariantNames.Adoption
import ServingTuner.Proofs.VariantNames.Counter
import ServingTuner.Proofs.VariantNames.Reserved
import ServingTuner.Proofs.VariantNames.Requests
import ServingTuner.Proofs.Config.Pointing
import ServingTuner.Proofs.Generator.Stages
import ServingTuner.Proofs.Generator.Sharing
import ServingTuner.Proofs.Search.Trials
import ServingTuner.Proofs.Search.BestRun
import ServingTuner.Proofs.Search.Floor
import ServingTuner.Proofs.Search.Feasibility
import ServingTuner.Proofs.Search.Life
import ServingTuner.Proofs.Options.RoundTrip
import ServingTuner.Proofs.Options.Grammar
import ServingTuner.Proofs.Generator.Twins
import ServingTuner.Proofs.Search.Registries
import ServingTuner.Proofs.Search.Picking
import ServingTuner.Proofs.Search.Exploring
import ServingTuner.Proofs.Search.Priority
import ServingTuner.Proofs.Ranking.OneMetric
import ServingTuner.Proofs.Constraint.Widening
import ServingTuner.Proofs.Constraint.Straying
import ServingTuner.Proofs.Constraint.Reading
import ServingTuner.Proofs.Generator.Standard
import ServingTuner.Proofs.Generator.Growth
import ServingTuner.Proofs.Ranking.Polarity
import ServingTuner.Proofs.Ranking.Mean
import ServingTuner.Coordinate.Iterator
import ServingTuner.Proofs.Coordinate.Iterating
import ServingTuner.Proofs.Generator.Products
import ServingTuner.Proofs.VariantNames.Reading
import ServingTuner.Proofs.VariantNames.Searching
import ServingTuner.Proofs.Ranking.Counting
