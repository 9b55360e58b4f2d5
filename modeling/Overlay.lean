import Overlay.Main
import Overlay.Proofs.CacheRefinement
import Overlay.Proofs.DirectoryContract
import Overlay.Proofs.ProgramOwnership
import Overlay.Proofs.FailedBuilds
import Overlay.Proofs.ShaderMeaning
import Overlay.Proofs.CacheProvenance
import Overlay.Proofs.ProgramCurrency
import Overlay.Proofs.HandleStability
import Overlay.Proofs.BuildVerdicts
import Overlay.Proofs.WorkerOrder
import Overlay.Proofs.Replacement
import Overlay.Proofs.CompiledOnce
import Overlay.Proofs.TornWrites
import Overlay.Proofs.PresetGrammar
import Overlay.Proofs.ReferenceAgreement
import Overlay.Proofs.CompilerLifecycle
import Overlay.Proofs.StoreAgreement
import Overlay.Proofs.ListedEntries
import Overlay.Proofs.GuardedEntries
import Overlay.Proofs.Sessions
import Overlay.Proofs.SessionSurvival
import Overlay.Proofs.DirectoryFrames
import Overlay.Proofs.AgeLimits
import Overlay.Proofs.MemoryBound
import Overlay.Proofs.LookupEffects
import Overlay.Proofs.Eviction
import Overlay.Proofs.MemoryPresence
import Overlay.Proofs.SiblingWalks
import Overlay.Proofs.DirectoryConfinement
import Overlay.Proofs.DeviceHistory
import Overlay.Proofs.BraceCounts
import Overlay.Proofs.Normalising
import Overlay.Proofs.ShaderMenu
import Overlay.Proofs.PassViews
import Overlay.Proofs.KeyAdmission
