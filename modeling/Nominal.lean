import Nominal.Main
import Nominal.Session
import Nominal.Text.Address
import Nominal.Proofs.Cache.Lifetimes
import Nominal.Proofs.Catalog.Transfer
import Nominal.Proofs.Identity.Kernel
import Nominal.Proofs.Reference.Segments
import Nominal.Proofs.World.Agreement
import Nominal.Proofs.World.DisplayNames
import Nominal.Proofs.World.Independence
import Nominal.Proofs.World.Instances
import Nominal.Proofs.World.Leniency
import Nominal.Proofs.World.Logging
import Nominal.Proofs.World.Names
import Nominal.Proofs.Reference.Verdicts
import Nominal.Proofs.Identity.Writes
import Nominal.Proofs.World.Deeds
import Nominal.Proofs.Catalog.Refusals
import Nominal.Proofs.World.Lifelong
import Nominal.Proofs.Reference.Locations
import Nominal.Proofs.World.Faults
import Nominal.Proofs.World.Outcomes
import Nominal.Proofs.World.Leftovers
import Nominal.Proofs.World.Metadata
import Nominal.Proofs.Catalog.Abandoned
import Nominal.Proofs.World.Enrolment
import Nominal.Proofs.World.Answers
import Nominal.Proofs.World.Unregistered
import Nominal.Proofs.World.GeneratedNames
import Nominal.Proofs.World.Unknown
import Nominal.Proofs.World.Holding
import Nominal.Proofs.World.Composition
import Nominal.Proofs.World.Trees
import Nominal.Proofs.Command.Parsing
import Nominal.Proofs.World.References
import Nominal.Proofs.Reference.Scanners
import Nominal.Proofs.World.Codes
import Nominal.Proofs.World.Seniority
