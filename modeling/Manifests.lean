import Manifests.DexSecret.Secrecy
import Manifests.MinioParams
import Manifests.ProfileController.Resync
import Manifests.Installer
import Manifests.Installer.Stages
import Manifests.MinioDecision
import Manifests.Library.FileTree
import Manifests.Validators
import Manifests.ExtractImages
import Manifests.GoldenFiles
import Manifests.ExtractImages.Preservation
import Manifests.Library.Json
import Manifests.KfParse
import Manifests.KfParse.Completeness
import Manifests.Library.PrefixPool
import Manifests.PodsValidator
import Manifests.Bootstrap
import Manifests.TenantImports
import Manifests.KfCollect
import Manifests.AirGap
import Manifests.KustomizationDirs
import Manifests.DexSecret.Outcome
import Manifests.DexSecret.Accepted
import Manifests.DexSecret.Texts
import Manifests.DexSecret.TlsSettings
import Manifests.DexSecret.GroupSearch
import Manifests.DexSecret.Stored
import Manifests.DexSecret.GroupFilter
import Manifests.DexSecret.GroupBase
import Manifests.DexSecret.Unicode
import Manifests.Installer.Retries
import Manifests.KfParse.Limit
import Manifests.KfParse.Soundness
import Manifests.ProfileController.Readiness
import Manifests.KfParse.Termination
import Manifests.KfParse.Returns
import Manifests.KfParse.Fallback
import Manifests.KfParse.KeyOrder
import Manifests.PodsValidator.Order
import Manifests.ExtractImages.References
import Manifests.ExtractImages.Idempotence
import Manifests.ExtractImages.Coverage
import Manifests.CommonLabels
import Manifests.KfdefSpecs
import Manifests.KptCreator
import Manifests.LegacyTests
import Manifests.LegacyTests.Sources
import Manifests.TlsSecret
import Manifests.WebhookSelector
import Manifests.GenerateTests
import Manifests.ExtractImages.Main
import Manifests.GenerateTests.Regenerate
import Manifests.GenerateTests.Rerun
import Manifests.KfpTekton
import Manifests.KptCreator.StripTree
import Manifests.Library.Teardown
import Manifests.Uninstaller
import Manifests.Uninstaller.RoundTrip
import Manifests.KfCollect.Report
import Manifests.Lifecycle
import Manifests.Lifecycle.Installs
import Manifests.Lifecycle.Uninstalls
import Manifests.Validators.Resources
import Manifests.Library.Guarded
import Manifests.WorkloadIdentity
import Manifests.WorkloadIdentity.Reruns
import Manifests.GoldenFiles.Difference
